import Telebridge.Inbound.Content
import Telebridge.Transfer.Download
set_option autoImplicit false

/-! # Handling updates

Of all updates only new messages in private chats are delivered to the conversation service, and then
marked as read. What the account sent itself, messages of bots, and messages whose sender cannot be
found are passed over. Every message is handled, whatever became of the ones before it; the first
failure is the outcome. -/

namespace Telebridge.Inbound

/-- The name of the channel that contacts are on. -/
def channelName : String := "telegram"

/-- The sender as a participant of the conversation. -/
def contactOf (user : User) : Envelope.Account :=
  { channel := channelName
    contact := Text.showInt64 user.id
    firstName := user.firstName.getD ""
    lastName := user.lastName.getD ""
    username := user.username.getD "" }

/-- The sender of an incoming private message. -/
def sender? (m : Message) : Option Int64 :=
  match m.peerId with
  | .user id => if m.out ∨ id = 0 then none else some id
  | .chat _ | .channel _ => none

/-- The user with an id: as it was last seen, or as the server describes it. -/
def findUser (id : Int64) : Program (Option User) := do
  match ← Program.read fun a => a.peers.findUser? id with
  | some user => return some user
  | none =>
    let hash ← Program.read fun a => (a.peers.find? ⟨.user, id⟩).getD 0
    let reply : Except CallError (List UserEntry) ← Pipeline.call (.getUsers [.user id hash])
    match reply with
    | .ok users => return (users.filterMap UserEntry.user?).find? fun u => u.id = id
    | .error _ => return none

/-- Fetches what a message brings; nothing if that fails. -/
def fetch : Content → Program (Option Envelope.Message)
  | .nothing => return none
  | .message m => return some m
  | .file f => do
    match ← Download.toStorage f.file f.location with
    | .ok file => return some (Envelope.Message.ofFile file f.caption)
    | .error _ => return none

/-- The envelope of a message: it says which message it is, and on a new channel who sent it. -/
def address (body : Envelope.Message) (m : Message) (contact : Envelope.Account)
    (channel : Envelope.Channel) : Envelope.Update :=
  let vars := body.vars.insert contact.contact (Text.showInt32 m.id)
  { chat := channel
    message := { body with
      vars :=
        if channel.isNew then vars.insert "username" contact.username else vars } }

/-- Delivers a message to the conversation with its sender. -/
def deliver (m : Message) (user : User) : Program (Except InboundError Unit) := do
  let contact := contactOf user
  let profile ← Program.read Account.profile
  match ← Program.external (.getChannel profile contact.contact contact) with
  | .error e => return .error (.gateway e)
  | .ok channel =>
    let stickerName ← if isStickerMessage m then
        (fun id => id ++ ".webp") <$> Program.external .uuid
      else pure ""
    match ← fetch (content m user.id channel stickerName) with
    | none => return .ok ()
    | some body =>
      match ← Program.external (.deliver profile (address body m contact channel)) with
      | .ok () => return .ok ()
      | .error e => return .error (.gateway e)

/-- Tells the server that a message was read, if it listens. -/
def markRead (m : Message) : Program Unit := do
  let peer ← Program.read fun a => a.peers.inputPeer m.peerId
  let _ ← Pipeline.call (.readHistory peer m.id)

/-- Handles a message with content. -/
def handleMessage (m : Message) : Program (Except InboundError Unit) := do
  match sender? m with
  | none => return .ok ()
  | some id =>
    match ← findUser id with
    | none => return .ok ()
    | some user =>
      if user.bot || user.isSelf then return .ok ()
      else
        let outcome ← deliver m user
        markRead m
        return outcome

/-- The message with content that an update brings as new. -/
def newMessage? : Update → Option Message
  | .newMessage (.message m) _ _ => some m
  | _ => none

/-- The first of two failures. -/
def firstFailure : Except InboundError Unit → Except InboundError Unit → Except InboundError Unit
  | .error e, _ => .error e
  | .ok (), outcome => outcome

/-- Handles messages in order; the outcome is the first failure. -/
def handleMessages : List Message → Program (Except InboundError Unit)
  | [] => return .ok ()
  | m :: rest => do
    let first ← handleMessage m
    let others ← handleMessages rest
    return firstFailure first others

/-- Handles a batch of updates. -/
def handle (updates : Updates) : Program (Except InboundError Unit) :=
  handleMessages (updates.toList.filterMap newMessage?)

end Telebridge.Inbound
