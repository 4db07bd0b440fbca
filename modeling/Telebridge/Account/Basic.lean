import Telebridge.Account.AuthSignal
import Telebridge.Account.PeerDirectory
import Telebridge.Account.SessionError
import Telebridge.Gateway.Profile
set_option autoImplicit false

/-! # Accounts

The whole state of one account. Two parts are taken by one activity at a time: the login flow by a
login step, and the run slot by a start. The connection and the readiness of the current run are what
the run tells its surroundings. -/

namespace Telebridge

/-- A part of the state that one activity can take and has to put back. -/
inductive Guarded (α : Type) where
  | free (value : α)
  | taken
deriving DecidableEq, Inhabited

/-- Where the protocol session is kept: in memory, or in the bot profile. A profile that has not been
created yet cannot be written; the session is then held until it can. -/
inductive SessionStore where
  | memory (data : Option ByteArray)
  | profile (held : Option ByteArray)
deriving DecidableEq, Inhabited

/-- The name of a kind of store. -/
def SessionStore.name : SessionStore → String
  | .memory _ => "in-memory"
  | .profile _ => "metadata"

/-- How far the current run's connection has come. -/
inductive Connection where
  | pending
  | up
  | dropped
deriving DecidableEq, Inhabited

/-- Whether the current run has become ready: awaited by its start, reported to it, given up by the
run, or abandoned by the start. -/
inductive Readiness where
  | awaited
  | reported
  | lost
  | abandoned
deriving DecidableEq, Inhabited

/-- A background task, by number. -/
abbrev TaskId := Nat

/-- An account. -/
structure Account where
  config : Config
  profile : ProfileId
  store : SessionStore := .profile none
  peers : PeerDirectory := PeerDirectory.empty
  signal : AuthSignal := AuthSignal.initial
  login : Guarded LoginFlow := .free {}
  started : Bool := false
  connection : Connection := .pending
  readiness : Readiness := .awaited
  run : Guarded (Option TaskId) := .free none
deriving Inhabited

end Telebridge
