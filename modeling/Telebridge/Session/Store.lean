import Telebridge.Program.Basic
set_option autoImplicit false

/-! # The store of the protocol session

Loading and saving the opaque state of the connection. In a bot profile it is a metadata value in
unpadded Base64; what cannot be written there yet is held back until it is flushed. -/

namespace Telebridge.Store

/-- The metadata value for a session. -/
def encode (data : ByteArray) : String :=
  String.ofList (Base64.encode Base64.standard data.data.toList)

/-- The session in a metadata value; none if the value is empty. -/
def decode (text : String) : Except SessionError (Option ByteArray) :=
  if text.isEmpty then .ok none
  else
    match Base64.decodeStripped? Base64.standard text.toList with
    | some bytes => .ok (some ⟨bytes.toArray⟩)
    | none => .error (.malformed .base64)

/-- The session as it is held, or as the profile has it. An empty session that is held does not
count, and a profile that has not been created yet has none. -/
def loadFrom (profile : Profile) (held : Option ByteArray) : Except SessionError (Option ByteArray) :=
  match held.filter fun data => !data.isEmpty with
  | some data => .ok (some data)
  | none =>
    if profile.botId = 0 then .ok none else decode (profile.metadataText MetadataKey.session)

/-- Loads the session. -/
def load : Program (Except SessionError (Option ByteArray)) := do
  match ← Program.read Account.store with
  | .memory data => return .ok data
  | .profile held => return loadFrom (← Program.currentProfile) held

/-- Writes a session to the bot profile. -/
def write (data : ByteArray) : Program (Except SessionError Unit) := do
  let profile ← Program.read Account.profile
  let metadata := Table.ofList [(MetadataKey.session, encode data)]
  match ← Program.external (.setMetadata profile metadata) with
  | .ok () => return .ok ()
  | .error e => return .error (.gateway e)

/-- Saves a session: in memory, in the profile, or held back until the profile has been created. -/
def save (data : ByteArray) : Program (Except SessionError Unit) := do
  match ← Program.read Account.store with
  | .memory _ =>
    Program.update fun a => { a with store := .memory (some data) }
    return .ok ()
  | .profile _ =>
    let profile ← Program.currentProfile
    if profile.botId = 0 then
      Program.update fun a => { a with store := .profile (some data) }
      return .ok ()
    else
      Program.update fun a => { a with store := .profile none }
      write data

/-- Writes out what is held back. -/
def flush : Program (Except SessionError Unit) := do
  match ← Program.read Account.store with
  | .memory _ | .profile none => return .ok ()
  | .profile (some data) =>
    Program.update fun a => { a with store := .profile none }
    write data

end Telebridge.Store
