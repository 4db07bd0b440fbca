import Telebridge.Call.RpcError
set_option autoImplicit false

/-! # Failed calls

A call fails because the server rejected it, because the server never gave a verdict, or because the
reply was not of the promised kind. -/

namespace Telebridge

/-- Why a call failed. -/
inductive CallError where
  | rpc (e : RpcError)
  | io (text : String)
  | timeout
  | cancelled
  | dropped
  | unexpectedResult (method got : String)
deriving DecidableEq, Inhabited

namespace CallError

/-- The text of the error. -/
def message : CallError → String
  | .rpc e => e.message
  | .io text => "I/O error: " ++ text
  | .timeout => "request timed out"
  | .cancelled => "request cancelled"
  | .dropped => "request dropped"
  | .unexpectedResult method got => "unexpected " ++ got ++ " result for " ++ method

/-- The server's verdict, if there was one. -/
def rpc? : CallError → Option RpcError
  | .rpc e => some e
  | _ => none

/-- Whether the server rejected the call with a name that matches the pattern. -/
def matchesName (e : CallError) (pattern : String) : Bool :=
  e.rpc?.any fun r => r.matchesName pattern

/-- The seconds that a flood wait asks for. -/
def floodWait? (e : CallError) : Option Nat :=
  e.rpc?.bind RpcError.floodWait?

/-- The call or the server timed out. -/
def isTimeout : CallError → Bool
  | .rpc e => e.isTimeout
  | .timeout => true
  | _ => false

/-- The server said that the session's authorization is gone. -/
def isUnauthorized (e : CallError) : Bool :=
  e.rpc?.any RpcError.isUnauthorized

/-- The call failed on the way. -/
def isIo : CallError → Bool
  | .io _ => true
  | _ => false

/-- The call ended without a verdict of the server. -/
def isTransport : CallError → Bool
  | .io _ | .timeout | .cancelled | .dropped => true
  | .rpc _ | .unexpectedResult _ _ => false

/-- The delay in milliseconds after which transfers and dialog pages are asked for again: what a
flood wait asks for, or a second after a timeout. Other errors are final. -/
def backoff? (e : CallError) : Option Nat :=
  match e.floodWait? with
  | some seconds => some (seconds * 1000)
  | none => if e.isTimeout then some 1000 else none

end CallError

end Telebridge
