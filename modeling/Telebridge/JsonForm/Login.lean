import Telebridge.JsonForm.Entity
import Telebridge.Schema.Login
set_option autoImplicit false

/-! # The JSON form of login values

How codes, authorizations and password challenges are written in JSON. -/

namespace Telebridge

open Json (variant nullable list int32 int64 str)
open JsonForm (bytes bytes? getBytes)

/-- Writes the settings for a code. -/
def CodeSettings.toJson (s : CodeSettings) : Json :=
  variant "CodeSettings" [
    ("allow_flashcall", .bool s.allowFlashcall), ("current_number", .bool s.currentNumber),
    ("allow_app_hash", .bool s.allowAppHash),
    ("logout_tokens", nullable (list bytes) s.logoutTokens)]

/-- Reads the settings for a code. -/
def CodeSettings.ofJson? (v : Json) : Option CodeSettings := do
  return ⟨← v.getBool "allow_flashcall", ← v.getBool "current_number", ← v.getBool "allow_app_hash",
    ← v.find "logout_tokens" (Json.asList? bytes?)⟩

/-- Writes how a code was delivered. -/
def CodeDelivery.toJson : CodeDelivery → Json
  | .app length => variant "App" [("length", int32 length)]
  | .sms length => variant "Sms" [("length", int32 length)]
  | .call length => variant "Call" [("length", int32 length)]
  | .flashCall pattern => variant "FlashCall" [("pattern", str pattern)]
  | .missedCall start length =>
    variant "MissedCall" [("prefix", str start), ("length", int32 length)]

/-- Reads how a code was delivered. -/
def CodeDelivery.ofJson? (v : Json) : Option CodeDelivery := do
  match ← v.variant? with
  | "App" => return .app (← v.getInt32 "length")
  | "Sms" => return .sms (← v.getInt32 "length")
  | "Call" => return .call (← v.getInt32 "length")
  | "FlashCall" => return .flashCall (← v.getString "pattern")
  | "MissedCall" => return .missedCall (← v.getString "prefix") (← v.getInt32 "length")
  | _ => none

/-- The ways to deliver a code and their names. -/
def CodeType.named : List (CodeType × String) := [
  (.sms, "Sms"), (.call, "Call"), (.flashCall, "FlashCall"), (.missedCall, "MissedCall"),
  (.fragmentSms, "FragmentSms")]

/-- Writes a way to deliver a code. -/
def CodeType.toJson (t : CodeType) : Json :=
  variant (((named.find? fun e => e.1 = t).map Prod.snd).getD "") []

/-- Reads a way to deliver a code. -/
def CodeType.ofJson? (v : Json) : Option CodeType := do
  let name ← v.variant?
  (named.find? fun e => e.2 = name).map Prod.fst

/-- The fields of an authorized session. -/
def Authorization.fields (a : Authorization) : List (String × Json) :=
  [("setup_password_required", .bool a.setupPasswordRequired), ("user", a.user.toJson)]

/-- Writes the outcome of an authorization request. -/
def AuthorizationReply.toJson : AuthorizationReply → Json
  | .authorized a => variant "Authorization" a.fields
  | .signUpRequired terms => variant "SignUpRequired" [("terms_of_service", nullable str terms)]

/-- Reads the outcome of an authorization request. -/
def AuthorizationReply.ofJson? (v : Json) : Option AuthorizationReply := do
  match ← v.variant? with
  | "Authorization" =>
    return .authorized
      ⟨← v.getBool "setup_password_required", ← v.need "user" UserEntry.ofJson?⟩
  | "SignUpRequired" => return .signUpRequired (← v.find "terms_of_service" Json.asString?)
  | _ => none

/-- Writes the outcome of a request for a code. -/
def SentCode.toJson : SentCode → Json
  | .code c => variant "SentCode" [
      ("type", c.delivery.toJson), ("phone_code_hash", str c.phoneCodeHash),
      ("next_type", nullable CodeType.toJson c.nextType), ("timeout", nullable int32 c.timeout)]
  | .success reply => variant "Success" [("authorization", reply.toJson)]

/-- Reads the outcome of a request for a code. -/
def SentCode.ofJson? (v : Json) : Option SentCode := do
  match ← v.variant? with
  | "SentCode" =>
    return .code {
      delivery := ← v.need "type" CodeDelivery.ofJson?
      phoneCodeHash := ← v.getString "phone_code_hash"
      nextType := ← v.find "next_type" CodeType.ofJson?
      timeout := ← v.find "timeout" Json.asInt32? }
  | "Success" => return .success (← v.need "authorization" AuthorizationReply.ofJson?)
  | _ => none

/-- The name of the password derivation in use. -/
def PasswordAlgorithm.modPowName : String :=
  "Sha256Sha256Pbkdf2HmacSha512iter100000Sha256ModPow"

/-- Writes a password derivation. -/
def PasswordAlgorithm.toJson : PasswordAlgorithm → Json
  | .unknown => variant "Unknown" []
  | .modPow salt1 salt2 g p => variant modPowName
      [("salt1", bytes salt1), ("salt2", bytes salt2), ("g", int32 g), ("p", bytes p)]

/-- Reads a password derivation. -/
def PasswordAlgorithm.ofJson? (v : Json) : Option PasswordAlgorithm := do
  let name ← v.variant?
  if name = "Unknown" then return .unknown
  else if name = modPowName then
    return .modPow (← getBytes v "salt1") (← getBytes v "salt2") (← v.getInt32 "g")
      (← getBytes v "p")
  else none

/-- Writes a password challenge. -/
def PasswordChallenge.toJson (c : PasswordChallenge) : Json :=
  variant "Password" [
    ("has_recovery", .bool c.hasRecovery), ("has_password", .bool c.hasPassword),
    ("current_algo", nullable PasswordAlgorithm.toJson c.currentAlgorithm),
    ("srp_b", nullable bytes c.srpB), ("srp_id", nullable int64 c.srpId),
    ("hint", nullable str c.hint), ("secure_random", bytes c.secureRandom)]

/-- Reads a password challenge. -/
def PasswordChallenge.ofJson? (v : Json) : Option PasswordChallenge := do
  return {
    hasRecovery := ← v.getBool "has_recovery"
    hasPassword := ← v.getBool "has_password"
    currentAlgorithm := ← v.find "current_algo" PasswordAlgorithm.ofJson?
    srpB := ← v.find "srp_b" bytes?
    srpId := ← v.find "srp_id" Json.asInt64?
    hint := ← v.find "hint" Json.asString?
    secureRandom := ← getBytes v "secure_random" }

/-- Writes the answer to a password challenge. -/
def PasswordProof.toJson : PasswordProof → Json
  | .empty => variant "InputCheckPasswordEmpty" []
  | .srp id a m1 => variant "InputCheckPasswordSrp"
      [("srp_id", int64 id), ("a", bytes a), ("m1", bytes m1)]

/-- Reads the answer to a password challenge. -/
def PasswordProof.ofJson? (v : Json) : Option PasswordProof := do
  match ← v.variant? with
  | "InputCheckPasswordEmpty" => return .empty
  | "InputCheckPasswordSrp" =>
    return .srp (← v.getInt64 "srp_id") (← getBytes v "a") (← getBytes v "m1")
  | _ => none

end Telebridge
