import Telebridge.Media.PartBuffer
import Telebridge.Program.External
import Telebridge.Sandbox.Script
set_option autoImplicit false

/-! # Stand-ins

What stands in for the surroundings of accounts: connections that follow a script, bot profiles and an
object storage with errors in store, and a web host with one file. They keep a log of what they were
asked. -/

namespace Telebridge.Sandbox

/-! ## Connections -/

/-- What happens when a connection is driven. -/
inductive LinkMode where
  /-- It comes up after some milliseconds and stays until it is cancelled. -/
  | connects (after : Nat)
  /-- It ends at once. -/
  | ends (result : Except CallError Unit)
  /-- It never comes up. -/
  | hangs
  /-- It will never report. -/
  | unreported

/-- A connection that is being driven. -/
structure ActiveLink where
  mode : LinkMode
  since : Nat
  reported : Bool := false
  exit : Option (Except CallError Unit) := none

/-- The connection of an account. -/
structure Connection where
  script : Script
  mode : LinkMode
  active : Option ActiveLink := none
  wasUp : Bool := false

/-! ## Profiles -/

/-- A bot profile and the conversation service behind it. Each list of errors is taken from once for
each request; nothing there means success. -/
structure ProfileStandIn where
  profile : Profile := {}
  contactId : Int64 := 77
  newChat : Bool := false
  getChannelErrors : List (Option GatewayError) := []
  deliverErrors : List (Option GatewayError) := []
  setMetadataErrors : List (Option GatewayError) := []

/-! ## Storage and web -/

/-- An object storage; it gives every file the same id and address. -/
structure Storage where
  openErrors : List (Option GatewayError) := []
  sendErrors : List (Option GatewayError) := []
  closeErrors : List (Option GatewayError) := []
  id : Int64 := 7
  url : String := "/any/file/7/download"
  size : Option Int64 := none
  malware : Bool := false

/-- A web host that serves one file. -/
structure Host where
  status : Nat := 200
  headers : List (String × String) := []
  body : ByteArray := ByteArray.empty
  /-- The size of chunks; without one the length is announced. -/
  chunk : Option Nat := none
  /-- How many announced bytes never come. -/
  missing : Nat := 0
  refuse : Bool := false

/-- A body on its way. -/
structure Body where
  url : Url
  pieces : List ByteArray
  broken : Bool

/-! ## The log -/

/-- What a profile was asked. -/
inductive ProfileEvent where
  | getChannel (chatId : String) (contact : Envelope.Account)
  | deliver (update : Envelope.Update)
  | setMetadata (metadata : Metadata)

/-- What the storage was asked. -/
inductive StorageEvent where
  | opened (header : Envelope.UploadHeader)
  | frame (bytes : ByteArray)
  | closed

/-- What everybody was asked. -/
structure Log where
  calls : Array Request := #[]
  profiles : Array ProfileEvent := #[]
  storage : Array StorageEvent := #[]
  connections : Array Config := #[]

/-! ## The state -/

/-- The state of all stand-ins. Connections are numbered by account, and begin as `blank` says;
without a host the web cannot be reached. -/
structure State where
  blank : Connection := { script := [], mode := .connects 0 }
  connections : Array Connection := #[]
  profiles : Array ProfileStandIn := #[]
  storage : Storage := {}
  uploads : Array Nat := #[]
  host : Option Host := some {}
  bodies : Array Body := #[]
  drawn : Nat := 0
  log : Log := {}

namespace State

/-- Takes the next error of a list; none if there is none in store. -/
def nextError (errors : List (Option GatewayError)) :
    Except GatewayError Unit × List (Option GatewayError) :=
  match errors with
  | [] => (.ok (), [])
  | none :: rest => (.ok (), rest)
  | some e :: rest => (.error e, rest)

/-- A profile. -/
def profile (s : State) (id : ProfileId) : ProfileStandIn :=
  s.profiles[id]?.getD {}

/-- Changes a profile. -/
def setProfile (s : State) (id : ProfileId) (p : ProfileStandIn) : State :=
  { s with profiles := s.profiles.setIfInBounds id p }

/-- A connection. -/
def connection (s : State) (account : Nat) : Connection :=
  s.connections[account]?.getD { script := [], mode := .hangs }

/-- Changes a connection. -/
def setConnection (s : State) (account : Nat) (c : Connection) : State :=
  { s with connections := s.connections.setIfInBounds account c }

/-- Logs a request to a profile. -/
def logProfile (s : State) (e : ProfileEvent) : State :=
  { s with log := { s.log with profiles := s.log.profiles.push e } }

/-- Logs a request to the storage. -/
def logStorage (s : State) (e : StorageEvent) : State :=
  { s with log := { s.log with storage := s.log.storage.push e } }

/-- Logs a call. -/
def logCall (s : State) (request : Request) : State :=
  { s with log := { s.log with calls := s.log.calls.push request } }

/-- Adds a connection for a new account, and logs it. -/
def addConnection (s : State) (config : Config) : State :=
  { s with
    connections := s.connections.push s.blank
    log := { s.log with connections := s.log.connections.push config } }

/-- Adds a profile; gives its number. -/
def addProfile (s : State) (p : ProfileStandIn) : ProfileId × State :=
  (s.profiles.size, { s with profiles := s.profiles.push p })

/-- Empties the log. -/
def clearLog (s : State) : State :=
  { s with log := {} }

end State

end Telebridge.Sandbox
