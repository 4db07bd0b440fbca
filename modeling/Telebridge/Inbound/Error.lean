import Telebridge.Call.CallError
import Telebridge.Gateway.Error
set_option autoImplicit false

/-! # Inbound errors

Why an update could not be handed on. -/

namespace Telebridge

/-- Why an inbound message was not delivered. -/
inductive InboundError where
  | gateway (e : GatewayError)
  | call (e : CallError)
deriving DecidableEq, Inhabited

/-- The text of the error. -/
def InboundError.message : InboundError → String
  | .gateway e => e.message
  | .call e => e.message

end Telebridge
