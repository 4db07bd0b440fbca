import Telebridge.Program.Basic
import Telebridge.Text.Phone
set_option autoImplicit false

/-! # The call pipeline

Every call of an account goes through `Pipeline.invoke`. It hands the request to the connection and
the reply to the caller unchanged. On the way the peer directory learns what the reply mentions, a
batch of updates in the reply is handled as if it had been pushed, and an error that says the
authorization is gone signs the account out. -/

namespace Telebridge.Pipeline

/-! ## Learning from replies -/

/-- Files a resolved peer under the digits of the phone number it was asked for. -/
def indexPhone (request : Request) (peer : Peer) (d : PeerDirectory) : PeerDirectory :=
  match request with
  | .resolvePhone phone =>
    let digits := Phone.digits phone
    if digits.isEmpty then d else d.savePhone digits peer.key
  | _ => d

/-- What the directory learns from the value of a reply. -/
def absorbValue (request : Request) (d : PeerDirectory) :
    (kind : ReplyKind) → kind.Value → PeerDirectory
  | .dialogs, page =>
    match page with
    | .full list | .slice _ list => d.apply list.users list.chats
    | .notModified _ => d
  | .peerDialogs, (list : DialogList) => d.apply list.users list.chats
  | .users, users => d.apply users []
  | .difference, difference =>
    match difference with
    | .difference missed | .slice missed => d.apply missed.users missed.chats
    | .empty _ _ | .tooLong _ => d
  | .resolvedPeer, (resolved : ResolvedPeer) =>
    indexPhone request resolved.peer (d.apply resolved.users resolved.chats)
  | .userFull, (full : UserFullReply) =>
    (d.apply full.users full.chats).saveUserFulls [full.fullUser]
  | .chatFull, (full : ChatFullReply) =>
    (d.apply full.users full.chats).applyChatFull full.fullChat
  | .updates, (updates : Updates) => d.apply updates.users updates.chats
  | .bool, _ | .sentCode, _ | .authorization, _ | .loggedOut, _ | .password, _
  | .affectedMessages, _ | .file, _ | .state, _ => d

/-- What the directory learns from a reply. -/
def absorb (request : Request) (reply : Reply) (d : PeerDirectory) : PeerDirectory :=
  absorbValue request d reply.kind reply.value

/-! ## Calls -/

/-- Sends a request and gives the reply as it came. -/
def invoke (request : Request) : Program (Except CallError Reply) := do
  match ← Program.external (.call request) with
  | .error e =>
    if e.isUnauthorized then
      Program.update fun a => { a with signal := a.signal.reset.2 }
    return .error e
  | .ok reply =>
    Program.update fun a => { a with peers := absorb request reply a.peers }
    match reply.value? .updates with
    | some updates => let _ ← Program.perform (.dispatch updates)
    | none => pure ()
    return .ok reply

/-- Sends a request and gives the value of the reply, which has to be of the promised kind. -/
def call (request : Request) : Program (Except CallError request.expected.Value) := do
  match ← invoke request with
  | .error e => return .error e
  | .ok reply =>
    match reply.value? request.expected with
    | some v => return .ok v
    | none => return .error (.unexpectedResult request.method reply.kind.name)

/-- One attempt at a call: its final outcome, or the number of failures to go on with. -/
def attempt (policy : RetryPolicy) (request : Request) (failures : Nat) :
    Program (Nat ⊕ Except CallError request.expected.Value) := do
  match ← call request with
  | .ok v => return .inr (.ok v)
  | .error e =>
    match policy.delay? failures e with
    | none => return .inr (.error e)
    | some ms =>
      match ← Program.pause ms with
      | .cancelled => return .inr (.error .cancelled)
      | .elapsed => return .inl (RetryPolicy.nextFailure failures)

/-- Sends a request, again and again as far as the policy allows. -/
def callWithRetry (policy : RetryPolicy) (request : Request) :
    Program (Except CallError request.expected.Value) :=
  Program.iterate 1 (attempt policy request)

/-- Sends a request under the account's own policy. -/
def callPersistently (request : Request) : Program (Except CallError request.expected.Value) := do
  let policy ← Program.read fun a => a.config.retryPolicy
  callWithRetry policy request

/-! ## Updates -/

/-- Takes a pushed batch: the directory learns what it mentions, then its updates are handled. -/
def receive (updates : Updates) : Program (Except InboundError Unit) := do
  Program.update fun a => { a with peers := a.peers.apply updates.users updates.chats }
  Program.perform (.dispatch updates)

end Telebridge.Pipeline
