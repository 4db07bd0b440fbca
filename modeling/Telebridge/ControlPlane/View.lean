import Telebridge.Json.Value
import Telebridge.Schema.Login
set_option autoImplicit false

/-! # What the control plane shows

The JSON forms of accounts, codes and sessions. Empty texts and absent parts are left out. -/

namespace Telebridge.ControlPlane

/-- A text that is left out when it is missing or empty. -/
def textView (name : String) (value : Option String) : List (String × Json) :=
  match value with
  | some s => if s.isEmpty then [] else [(name, Json.str s)]
  | none => []

/-- A number that is left out when it is missing. -/
def numberView (name : String) (value : Option Int32) : List (String × Json) :=
  (value.map fun n => (name, Json.integer n.toInt)).toList

/-- A user. -/
def userView (u : User) : Json :=
  Json.obj <|
    [("id", .integer u.id.toInt)] ++ textView "first_name" u.firstName ++
    textView "last_name" u.lastName ++ textView "username" u.username ++ textView "phone" u.phone

/-- What is said of a session: whether the profile is enabled, whether the session is connected, and
who is signed in. -/
def statusView (enabled connected : Bool) (user : Option User) : Json :=
  Json.obj <|
    [("enabled", .bool enabled), ("connected", .bool connected),
      ("authorized", .bool user.isSome)] ++
    (user.map fun u => ("account", userView u)).toList

/-- An authorized session. -/
def authorizationView (setupPasswordRequired : Bool) (user : Option User) : Json :=
  Json.obj <|
    ("setup_password_required", .bool setupPasswordRequired) ::
      (user.map fun u => ("user", userView u)).toList

/-- An authorized session as the server gave it. -/
def sessionView (a : Authorization) : Json :=
  authorizationView a.setupPasswordRequired a.user.user?

/-- How a code was delivered, and its length where it has one. -/
def deliveryView : CodeDelivery → String × Option Int32
  | .app length => ("app", some length)
  | .sms length => ("sms", some length)
  | .call length => ("call", some length)
  | .flashCall _ => ("flash_call", none)
  | .missedCall _ length => ("missed_call", some length)

/-- How the next code can be delivered. -/
def codeTypeView : CodeType → String
  | .sms => "sms"
  | .call => "call"
  | .flashCall => "flash_call"
  | .missedCall => "missed_call"
  | .fragmentSms => "fragment_sms"

/-- The answer to a request for a code. -/
def sentCodeView : SentCode → Json
  | .code c =>
    let (delivery, length) := deliveryView c.delivery
    Json.obj <|
      [("type", Json.str "code"), ("delivery", Json.str delivery)] ++ numberView "length" length ++
      [("phone_code_hash", Json.str c.phoneCodeHash)] ++
      (c.nextType.map fun t => ("next_type", Json.str (codeTypeView t))).toList ++
      numberView "timeout" c.timeout
  | .success (.authorized a) =>
    Json.obj [("type", Json.str "success"), ("authorization", sessionView a)]
  | .success (.signUpRequired _) =>
    Json.obj [("type", Json.str "success"), ("authorization", authorizationView false none)]

end Telebridge.ControlPlane
