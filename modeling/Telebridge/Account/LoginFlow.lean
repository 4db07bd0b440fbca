import Telebridge.Media.FileName
import Telebridge.Schema.Login
set_option autoImplicit false

/-! # The login flow

What an account remembers while it logs in and out: the phone number a code was asked for, the code
on its way, when a code was asked for and when the session began, and the logout tokens, most recent
first. At most `maxTokens` tokens are kept. -/

namespace Telebridge

/-- The state of logging in. -/
structure LoginFlow where
  phone : String := ""
  request : Option CodeRequest := none
  requestedAt : Option FileName.Moment := none
  signedInAt : Option FileName.Moment := none
  tokens : List ByteArray := []
deriving DecidableEq, Inhabited

namespace LoginFlow

/-- The number of logout tokens that are kept. -/
def maxTokens : Nat := 20

/-- Remembers a new logout token; the oldest goes when there are too many. -/
def pushToken (f : LoginFlow) (token : ByteArray) : LoginFlow :=
  { f with tokens := token :: (if maxTokens ≤ f.tokens.length then f.tokens.dropLast else f.tokens) }

/-- Adds restored tokens after the ones that are held, as far as there is room. -/
def restoreTokens (f : LoginFlow) (tokens : List ByteArray) : LoginFlow :=
  { f with tokens := f.tokens ++ tokens.take (maxTokens - f.tokens.length) }

/-- The settings for a new code: the logout tokens, if there are any. -/
def codeSettings (f : LoginFlow) : CodeSettings :=
  { logoutTokens := if f.tokens.isEmpty then none else some f.tokens }

end LoginFlow

end Telebridge
