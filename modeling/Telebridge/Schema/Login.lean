import Telebridge.Data.ByteArray
import Telebridge.Schema.Entity
set_option autoImplicit false

/-! # Login

What is exchanged while an account logs in: how a code was sent, who is authorized, and the password
challenge of accounts with two-step verification. -/

namespace Telebridge

/-- What the client allows when a code is sent, and its logout tokens, most recent first. -/
structure CodeSettings where
  allowFlashcall : Bool := false
  currentNumber : Bool := false
  allowAppHash : Bool := false
  logoutTokens : Option (List ByteArray) := none
deriving DecidableEq, Inhabited

/-- How a code was delivered. -/
inductive CodeDelivery where
  | app (length : Int32)
  | sms (length : Int32)
  | call (length : Int32)
  | flashCall (pattern : String)
  | missedCall (callerStart : String) (length : Int32)
deriving DecidableEq, Inhabited

/-- How the next code can be delivered. -/
inductive CodeType where
  | sms
  | call
  | flashCall
  | missedCall
  | fragmentSms
deriving DecidableEq, Inhabited

/-- A code on its way. -/
structure CodeRequest where
  delivery : CodeDelivery
  phoneCodeHash : String
  nextType : Option CodeType
  timeout : Option Int32
deriving DecidableEq, Inhabited

/-- An authorized session. -/
structure Authorization where
  setupPasswordRequired : Bool
  user : UserEntry
deriving DecidableEq, Inhabited

/-- The outcome of an authorization request. -/
inductive AuthorizationReply where
  | authorized (a : Authorization)
  | signUpRequired (termsOfService : Option String)
deriving DecidableEq, Inhabited

/-- The outcome of a request for a code: a code on its way, or no code needed. -/
inductive SentCode where
  | code (c : CodeRequest)
  | success (a : AuthorizationReply)
deriving DecidableEq, Inhabited

/-- The password derivation of a challenge. -/
inductive PasswordAlgorithm where
  | unknown
  | modPow (salt1 salt2 : ByteArray) (g : Int32) (p : ByteArray)
deriving DecidableEq, Inhabited

/-- The password challenge of an account. -/
structure PasswordChallenge where
  hasRecovery : Bool := false
  hasPassword : Bool := false
  currentAlgorithm : Option PasswordAlgorithm := none
  srpB : Option ByteArray := none
  srpId : Option Int64 := none
  hint : Option String := none
  secureRandom : ByteArray := ByteArray.empty
deriving DecidableEq, Inhabited

/-- The answer to a password challenge. -/
inductive PasswordProof where
  | empty
  | srp (srpId : Int64) (a m1 : ByteArray)
deriving DecidableEq, Inhabited

end Telebridge
