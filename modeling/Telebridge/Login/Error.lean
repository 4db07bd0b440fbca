import Telebridge.Call.CallError
set_option autoImplicit false

/-! # Login errors

Why a login step does not lead to a session. -/

namespace Telebridge

/-- Why a login step failed. -/
inductive LoginError where
  | signUpRequired
  | passwordRequired
  | invalidPassword
  | unsupportedAlgorithm
  /-- The challenge's modulus is zero, so nothing can be computed. -/
  | zeroModulus
  | call (e : CallError)
deriving DecidableEq, Inhabited

namespace LoginError

/-- The text of the error. -/
def message : LoginError → String
  | .signUpRequired => "sign up required, use an official Telegram app"
  | .passwordRequired => "2FA password required"
  | .invalidPassword => "invalid 2FA password"
  | .unsupportedAlgorithm => "unsupported password algorithm"
  | .zeroModulus => "attempt to calculate with zero modulus!"
  | .call e => e.message

/-- The server's verdict, if there was one. -/
def rpc? : LoginError → Option RpcError
  | .call e => e.rpc?
  | _ => none

end LoginError

end Telebridge
