import Telebridge.Account.Backup
import Telebridge.Call.CallError
import Telebridge.Gateway.Error
set_option autoImplicit false

/-! # Session errors

Why a session, or the store of its protocol state, fails. -/

namespace Telebridge

/-- Why a session fails. -/
inductive SessionError where
  | call (e : CallError)
  | gateway (e : GatewayError)
  | malformed (m : Backup.Malformed)
  | crashed
  | stopped
  | alreadyRunning
deriving DecidableEq, Inhabited

/-- The text of the error. -/
def SessionError.message : SessionError → String
  | .call e => e.message
  | .gateway e => e.message
  | .malformed .base64 => "session blob: not in base64"
  | .malformed .json => "logout tokens: not in JSON"
  | .crashed => "session task panicked"
  | .stopped => "session stopped before it was ready"
  | .alreadyRunning => "session already running"

/-- How a run of a session ended. -/
inductive RunOutcome where
  | finished (result : Except SessionError Unit)
  | crashed

/-- The result that a run leaves. -/
def RunOutcome.result : RunOutcome → Except SessionError Unit
  | .finished result => result
  | .crashed => .error .crashed

end Telebridge
