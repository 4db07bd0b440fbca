import Telebridge.Outbound.Resolve
import Telebridge.Transfer.Upload
set_option autoImplicit false

/-! # Notifications

Sending a message of the conversation service to the private chat it belongs to, and the gateway
errors that stand for what can go wrong. -/

namespace Telebridge

/-- The gateway's error for a failed call. Errors of the server keep their name, and their code if it
is one that a client is to blame for; everything else is the other side's fault. -/
def CallError.toGateway (e : CallError) : GatewayError :=
  match e.rpc? with
  | some r =>
    let code := if 100 ≤ r.code ∧ r.code < 500 then UInt16.ofNat r.code.toInt.toNat else 502
    ⟨r.name, code, r.raw⟩
  | none => .badGateway "chat.gateway.telegram.request.error" e.message

/-- The gateway's error for a failed transfer. -/
def TransferError.toGateway : TransferError → GatewayError
  | .call e => e.toGateway
  | .storage e => e
  | e => .badGateway "chat.gateway.telegram.media.error" e.message

/-- The gateway's error for a failed session. -/
def SessionError.toGateway : SessionError → GatewayError
  | .call e => e.toGateway
  | .gateway e => e
  | e => .internal "chat.gateway.telegram.session.error" e.message

namespace Notify

/-- The user that a chat id names. -/
def userId (chatId : String) : Except GatewayError Int64 :=
  let text := Text.trim chatId
  match Text.readInt64? text with
  | some id => .ok id
  | none =>
    .error (.internal "chat.gateway.telegram.chat.id.invalid"
      ("telegram: invalid chat id " ++ Text.quote text))

/-- The access hash that listed users give for an id, zero if they give none. -/
def hashIn (users : List UserEntry) (id : Int64) : Int64 :=
  ((users.filterMap UserEntry.user?).findSome? fun u =>
    if u.id = id then u.accessHash else none).getD 0

/-- The addressee for a user id: known to the directory, or asked for. -/
def addressee (id : Int64) : Program (Except CallError InputPeer) := do
  match ← Program.read fun a => a.peers.find? ⟨.user, id⟩ with
  | some hash => return .ok (.user id hash)
  | none =>
    let reply : Except CallError (List UserEntry) ← Pipeline.call (.getUsers [.user id 0])
    match reply with
    | .ok users => return .ok (.user id (hashIn users id))
    | .error e => return .error e

/-- Sends a request whose reply does not matter. -/
def submit (request : Request) : Program (Except GatewayError Unit) := do
  match ← Pipeline.callPersistently request with
  | .ok _ => return .ok ()
  | .error e => return .error e.toGateway

/-- Sends a text. -/
def sendText (peer : InputPeer) (text : String) : Program (Except GatewayError Unit) := do
  let randomId ← Program.external .randomId
  submit (.sendMessage { peer, message := text, randomId })

/-- Sends a file with a caption. -/
def sendFile (peer : InputPeer) (file : Envelope.File) (caption : String) :
    Program (Except GatewayError Unit) := do
  match ← Upload.fromWeb file with
  | .error e => return .error e.toGateway
  | .ok uploaded =>
    let randomId ← Program.external .randomId
    submit (.sendMedia { peer, media := uploaded.inputMedia, message := caption, randomId })

/-- Sends the body of a message; contacts are not sent. -/
def sendBody (peer : InputPeer) (m : Envelope.Message) : Program (Except GatewayError Unit) :=
  match m.kind with
  | .text => sendText peer m.text
  | .file =>
    match m.file with
    | some file => sendFile peer file m.text
    | none =>
      return .error (.badRequest "chat.gateway.telegram.file.required"
        "telegram: file message without a file")
  | .contact => return .ok ()

/-- Sends a message to the chat it belongs to. -/
def send (update : Envelope.Update) : Program (Except GatewayError Unit) := do
  match userId update.chat.chatId with
  | .error e => return .error e
  | .ok id =>
    match ← addressee id with
    | .error e => return .error e.toGateway
    | .ok peer => sendBody peer update.message

end Notify

end Telebridge
