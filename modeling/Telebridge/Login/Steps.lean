import Telebridge.Call.Pipeline
import Telebridge.Login.Password
set_option autoImplicit false

/-! # Logging in and out

A login goes from a phone number over a code, and a password if the account has one, to a session.
Every step takes the login flow, so steps run one after the other. A step that fails leaves the flow
as it was, but for the moment a code was asked for, and the phone number if the answer was that it has
to sign up first; a logout that the server rejects still ends the session here. -/

namespace Telebridge.Login

/-- The answer of a step and the flow that it leaves. -/
abbrev Step (α : Type) : Type := Except LoginError α × LoginFlow

/-! ## Who is signed in -/

/-- Asks the server who is signed in; nobody if there is no authorization. -/
def whoAmI : Program (Except CallError (Option User)) := do
  let reply : Except CallError (List UserEntry) ← Pipeline.call (.getUsers [.self])
  match reply with
  | .ok users => return .ok (users.findSome? UserEntry.user?)
  | .error e => if e.isUnauthorized then return .ok none else return .error e

/-- Asks the server who is signed in and publishes the answer, unless it is nobody. -/
def refresh : Program (Except CallError (Option User)) := do
  match ← whoAmI with
  | .ok (some user) =>
    Program.update fun a => { a with signal := a.signal.setUser (some user) }
    return .ok (some user)
  | reply => return reply

/-! ## Steps -/

/-- Ends the login with the server's authorization: the directory learns the user, and everybody is
told. -/
def commit (flow : LoginFlow) (reply : AuthorizationReply) : Program (Step Authorization) := do
  match reply with
  | .signUpRequired _ => return (.error .signUpRequired, flow)
  | .authorized session =>
    let now ← Program.external .now
    Program.update fun a => { a with peers := a.peers.apply [session.user] [] }
    Program.update fun a => { a with signal := a.signal.setUser session.user.user? }
    return (.ok session, { flow with request := none, signedInAt := some now })

/-- Asks for a code to be sent, or sent again when one is on its way. -/
def requestCode (flow : LoginFlow) (phone : String) : Program (Except CallError SentCode) :=
  match flow.request with
  | some pending => Pipeline.call (.resendCode phone pending.phoneCodeHash)
  | none => do
    let config ← Program.read Account.config
    Pipeline.call (.sendCode phone config.apiId config.apiHash flow.codeSettings)

/-- Asks for a code for a phone number. A logout token may make the code needless; the account is
then signed in at once. -/
def sendCodeStep (phone : String) (flow : LoginFlow) : Program (Step SentCode) := do
  let now ← Program.external .now
  let flow := { flow with requestedAt := some now }
  match ← requestCode flow phone with
  | .error e => return (.error (.call e), flow)
  | .ok sent =>
    let flow := { flow with phone }
    match sent with
    | .code c => return (.ok sent, { flow with request := some c })
    | .success reply =>
      match ← commit flow reply with
      | (.ok _, flow) => return (.ok sent, flow)
      | (.error e, flow) => return (.error e, flow)

/-- Gives up the code on its way, whether or not the server can be told. -/
def cancelCodeStep (flow : LoginFlow) : Program (Unit × LoginFlow) := do
  match flow.request with
  | none => return ((), flow)
  | some pending =>
    let _ ← Pipeline.call (.cancelCode flow.phone pending.phoneCodeHash)
    return ((), { flow with request := none })

/-- Signs in with the code that was sent. -/
def signInStep (code : String) (flow : LoginFlow) : Program (Step Authorization) := do
  match flow.request with
  | none => return (.error (.call (.rpc RpcError.authRestart)), flow)
  | some pending =>
    let reply : Except CallError AuthorizationReply ←
      Pipeline.call (.signIn flow.phone pending.phoneCodeHash (some (Text.trim code)))
    match reply with
    | .ok authorization => commit flow authorization
    | .error e =>
      if e.matchesName "SESSION_PASSWORD_NEEDED" then return (.error .passwordRequired, flow)
      else return (.error (.call e), flow)

/-- The proof that the server asks for. -/
def passwordProof (secret : String) : Program (Except LoginError PasswordProof) := do
  let reply : Except CallError PasswordChallenge ← Pipeline.call .getPassword
  match reply with
  | .error e => return .error (.call e)
  | .ok description =>
    match Password.challenge description with
    | .error e => return .error e
    | .ok challenge =>
      let a ← Program.external (.randomBytes 256)
      return Password.prove challenge a secret

/-- Signs in with the account's password. -/
def passwordStep (secret : String) (flow : LoginFlow) : Program (Step Authorization) := do
  match ← passwordProof secret with
  | .error e => return (.error e, flow)
  | .ok proof =>
    let reply : Except CallError AuthorizationReply ← Pipeline.call (.checkPassword proof)
    match reply with
    | .ok authorization => commit flow authorization
    | .error e =>
      if e.matchesName "PASSWORD_HASH_INVALID" then return (.error .invalidPassword, flow)
      else return (.error (.call e), flow)

/-- Ends the session here, and keeps the token the server gave, if any. -/
def leave (flow : LoginFlow) (token : Option ByteArray) : Program (Step Unit) := do
  let flow := match token with
    | some t => if t.isEmpty then flow else flow.pushToken t
    | none => flow
  Program.update fun a => { a with signal := a.signal.reset.2 }
  return (.ok (), { flow with signedInAt := none })

/-- Logs out. A failure on the way changes nothing; a rejection ends the session all the same. -/
def logOutStep (flow : LoginFlow) : Program (Step Unit) := do
  let reply : Except CallError (Option ByteArray) ← Pipeline.call .logOut
  match reply with
  | .ok token => leave flow token
  | .error e => if e.isTransport then return (.error (.call e), flow) else leave flow none

/-! ## The operations -/

/-- Asks for a code for a phone number, or for the pending one to be sent again. -/
def sendCode (phone : String) : Program (Except LoginError SentCode) :=
  Program.withLogin (sendCodeStep phone)

/-- Gives up the code on its way. -/
def cancelCode : Program Unit :=
  Program.withLogin cancelCodeStep

/-- Signs in with the code that was sent. -/
def signIn (code : String) : Program (Except LoginError Authorization) :=
  Program.withLogin (signInStep code)

/-- Signs in with the account's password. -/
def password (secret : String) : Program (Except LoginError Authorization) :=
  Program.withLogin (passwordStep secret)

/-- Logs out. -/
def logOut : Program (Except LoginError Unit) :=
  Program.withLogin logOutStep

/-- Adds restored logout tokens after the ones that are held. -/
def restoreTokens (tokens : List ByteArray) : Program Unit :=
  Program.withLogin fun flow => return ((), flow.restoreTokens tokens)

/-- The login flow as it is between steps. -/
def flow : Program LoginFlow :=
  Program.withLogin fun flow => return (flow, flow)

end Telebridge.Login
