import Telebridge.Call.Pipeline
import Telebridge.Envelope.Broadcast
import Telebridge.Text.Blank
set_option autoImplicit false

/-! # Resolving peers

Finding the addressee for a phone number or a username. A phone number is looked up in the directory
first, and asked for again if the entry is out of date. -/

namespace Telebridge

/-- Why a peer was not resolved. -/
inductive ResolveError where
  | notFound (peer : String)
  | duplicate (peer : String)
  | call (e : CallError)
deriving DecidableEq, Inhabited

/-- The text of the error. -/
def ResolveError.message : ResolveError → String
  | .notFound peer => "peer " ++ peer ++ " not found"
  | .duplicate peer => "peer " ++ peer ++ " duplicate"
  | .call e => e.message

/-- What a broadcast reports for a failed call. -/
def CallError.reason (e : CallError) : Envelope.FailureReason :=
  match e.rpc? with
  | some r => ⟨r.code, r.raw⟩
  | none => ⟨500, e.message⟩

/-- What a broadcast reports for an unresolved peer. -/
def ResolveError.reason : ResolveError → Envelope.FailureReason
  | .notFound _ => ⟨404, "peer not found"⟩
  | .duplicate _ => ⟨400, "chat.broadcast.peer.duplicate"⟩
  | .call e => e.reason

namespace Resolve

/-- The only user with an id among listed users. -/
def singleUser? (users : List UserEntry) (id : Int64) : Option User :=
  match (users.filterMap UserEntry.user?).filter fun u => u.id = id with
  | [u] => some u
  | _ => none

/-- Asks the server for the user that the directory has under some digits; none if it has no user
there, or the server does not know that user. -/
def indexed (digits : String) : Program (Except CallError (Option User)) := do
  match ← Program.read fun a => a.peers.findPhone? digits with
  | some (⟨.user, id⟩, hash) =>
    let reply : Except CallError (List UserEntry) ← Pipeline.call (.getUsers [.user id hash])
    match reply with
    | .ok users => return .ok (singleUser? users id)
    | .error e => return .error e
  | _ => return .ok none

/-- Asks the server for the user with a phone number, at most twice. -/
def remote (digits : String) : Program (Except ResolveError User) := do
  let reply : Except CallError ResolvedPeer ←
    Pipeline.callWithRetry (.attempts 2) (.resolvePhone digits)
  match reply with
  | .ok resolved =>
    match resolved.peer with
    | .user id =>
      match singleUser? resolved.users id with
      | some user => return .ok user
      | none => return .error (.notFound digits)
    | .chat _ | .channel _ => return .error (.notFound digits)
  | .error e =>
    if e.matchesName "PHONE_NOT_OCCUPIED" then return .error (.notFound digits)
    else return .error (.call e)

/-- The user with a phone number. -/
def phone (number : String) : Program (Except ResolveError User) := do
  let digits := Phone.digits number
  if digits.isEmpty then return .error (.notFound digits)
  else
    match ← indexed digits with
    | .error e => return .error (.call e)
    | .ok (some user) => return .ok user
    | .ok none => remote digits

/-- A username without blanks around it and `@` in front. -/
def bareUsername (name : String) : String :=
  String.ofList (Text.dropFront (· = '@') (Text.trim name).toList)

/-- The peer with a username. -/
def username (name : String) : Program (Except ResolveError InputPeer) := do
  let name := bareUsername name
  if name.isEmpty then return .error (.notFound name)
  else
    let reply : Except CallError ResolvedPeer ← Pipeline.call (.resolveUsername name)
    match reply with
    | .ok resolved => return .ok (← Program.read fun a => a.peers.inputPeer resolved.peer)
    | .error e =>
      if e.matchesName "USERNAME_NOT_OCCUPIED" || e.matchesName "USERNAME_INVALID" then
        return .error (.notFound name)
      else return .error (.call e)

/-- The addressee for a phone number or a username. -/
def peer (text : String) : Program (Except ResolveError InputPeer) := do
  let text := Text.trim text
  if text.isEmpty then return .error (.notFound "")
  else if Phone.isNumber text then
    match ← phone text with
    | .ok user => return .ok (.user user.id (user.accessHash.getD 0))
    | .error e => return .error e
  else username text

end Resolve

end Telebridge
