import Telebridge.ControlPlane.Http
import Telebridge.ControlPlane.View
import Telebridge.Login.Steps
import Telebridge.Outbound.Notify
set_option autoImplicit false

/-! # The control plane

The web interface to one account: the login form for everybody; the status, and the steps of logging
in and out, for administrators. A request that is not an administrator's sees nothing of the account
and changes nothing. -/

namespace Telebridge.ControlPlane

/-- The gateway's error for a failed login step. -/
def loginError : LoginError → GatewayError
  | .call e => e.toGateway
  | e@.passwordRequired => .unauthorized "SESSION_PASSWORD_NEEDED" e.message
  | e@.invalidPassword => .badRequest "PASSWORD_HASH_INVALID" e.message
  | e@.signUpRequired => .badRequest "chat.gateway.telegram.sign_up.required" e.message
  | e@.unsupportedAlgorithm => .internal "chat.gateway.telegram.password.algo" e.message
  | e@.zeroModulus => .internal "chat.gateway.telegram.password.algo" e.message

/-- The result of a login step, shown by `view`. -/
def stepResult {α : Type} (view : α → Json) : Except LoginError α → Except GatewayError Json
  | .ok a => .ok (view a)
  | .error e => .error (loginError e)

/-! ## Actions -/

/-- A step that a form asks for. -/
inductive FormAction where
  | logOut
  | cancel
  | phone (number : String)
  | code (text : String)
  | password (secret : String)
deriving DecidableEq, Inhabited

/-- The value of a field that is not blank. -/
def field? (form : List (String × String)) (name : String) : Option String :=
  (Form.value? form name).filter fun v => !Text.isBlankText v

/-- The step that a form asks for, if any. -/
def FormAction.ofForm? (form : List (String × String)) : Option FormAction :=
  if (Form.value? form "logout").isSome then some .logOut
  else if (Form.value? form "cancel").isSome then some .cancel
  else
    ((field? form "phone").map fun v => .phone (Text.trim v)) <|>
      (field? form "code").map .code <|> (field? form "2fa").map .password

/-- What is said of a step that has no result. -/
def done : Json := Json.str "OK"

/-- Takes a step. -/
def FormAction.take : FormAction → Program (Except GatewayError Json)
  | .logOut => return stepResult (fun _ => done) (← Login.logOut)
  | .cancel => do
    Login.cancelCode
    return .ok done
  | .phone number => return stepResult sentCodeView (← Login.sendCode number)
  | .code text => return stepResult sessionView (← Login.signIn text)
  | .password secret => return stepResult sessionView (← Login.password secret)

/-! ## Requests -/

/-- The login form. -/
def loginPage : Program Response := do
  match (← Program.currentProfile).loginPage with
  | some html => return .page html
  | none =>
    return .error (.notFound "chat.gateway.telegram.login.not_found" "login page not found")

/-- What `continuation` answers to an administrator. -/
def asAdministrator (headers : Headers) (continuation : Program (Except GatewayError Json)) :
    Program (Except GatewayError Json) := do
  let profile ← Program.read Account.profile
  match ← Program.external (.authorize profile headers) with
  | .ok () => continuation
  | .error e => return .error e

/-- The status of the account. -/
def status : Program (Except GatewayError Json) := do
  let profile ← Program.currentProfile
  let (connected, user) ← Program.read fun a => (a.started, a.signal.user)
  return .ok (statusView profile.enabled connected user)

/-- Takes the step that a form asks for. A step is not given up when its request is. -/
def submit (body : ByteArray) : Program (Except GatewayError Json) :=
  match FormAction.ofForm? (Form.parse body.data.toList) with
  | some action => Program.shield action.take
  | none =>
    return .error (.badRequest "chat.gateway.telegram.action.unknown" "Unknown action request")

/-- Answers a request to the only path there is. -/
def answerRoot (r : Request) : Program Response := do
  if r.method = "GET" then
    if (Form.value? (query r.target) "auth").isSome then loginPage
    else return .ofResult (← asAdministrator r.headers status)
  else if r.method = "POST" then
    return .ofResult (← asAdministrator r.headers (submit r.body))
  else return .error (.methodNotAllowed "METHOD_NOT_ALLOWED" "(405) Method not allowed")

/-- The longest body that is taken. -/
def bodyLimit : Nat := 2 * 1024 * 1024

/-- Answers a request; one for the head of a response gets no body. -/
def answer (r : Request) : Program Response := do
  let response ←
    if path r.target ≠ "/" then pure Response.nowhere
    else if bodyLimit < r.body.size then pure Response.tooLarge
    else answerRoot r
  return if r.method = "HEAD" then { response with body := "" } else response

end Telebridge.ControlPlane
