import Telebridge.Login.Steps
import Telebridge.Session.Store
import Telebridge.Session.Watch
set_option autoImplicit false

/-! # Running a session

A session runs as a background task. The task drives the connection; once that is up it restores what
was stored, reports that it is ready, and watches who is signed in. However it ends, it stores what
the account holds. Only one run of an account is alive at a time. -/

namespace Telebridge.Session

/-! ## What is stored between runs -/

/-- Takes up the logout tokens that the profile has. -/
def restoreTokens : Program Unit := do
  let profile ← Program.currentProfile
  match Backup.toTokens (profile.metadataText MetadataKey.auth) with
  | .ok tokens => if tokens.isEmpty then return () else Login.restoreTokens tokens
  | .error _ => return ()

/-- Takes up the access hashes that the profile has. -/
def restorePeers : Program Unit := do
  let profile ← Program.currentProfile
  match Backup.toHashes (profile.metadataText MetadataKey.peers) with
  | .ok users => Program.update fun a => { a with peers := a.peers.restoreUsers users.toList }
  | .error _ => return ()

/-- The metadata that stores logout tokens and access hashes. Tokens are stored only if there are
any; without access hashes an empty value clears those of an earlier account. -/
def backup (tokens : List ByteArray) (users : List (Int64 × Int64)) : Metadata :=
  Table.ofList <|
    ((Backup.ofTokens tokens).map fun text => (MetadataKey.auth, text)).toList ++
      [(MetadataKey.peers, (Backup.ofHashes users).getD "")]

/-- Stores what the account holds, as far as the profile takes it. -/
def persist : Program Unit := do
  let _ ← Store.flush
  let flow ← Login.flow
  let users ← Program.read fun a => a.peers.backupUsers
  let profile ← Program.read Account.profile
  let _ ← Program.external (.setMetadata profile (backup flow.tokens users))

/-! ## The run -/

/-- How driving the connection ended. -/
inductive LinkExit where
  | ended (result : Except CallError Unit)
  | crashed

/-- Passes on one report of the connection. -/
def linkTurn (_ : Unit) : Program (Unit ⊕ LinkExit) := do
  match ← Program.external .linkEvent with
  | .connected =>
    Program.update fun a => { a with connection := .up }
    return .inl ()
  | .unreported =>
    Program.update fun a => { a with connection := .dropped }
    return .inl ()
  | .ended result => return .inr (.ended result)
  | .crashed => return .inr .crashed

/-- Drives the connection. -/
def link : Program LinkExit := do
  Program.external .connect
  Program.iterate () linkTurn

/-- Waits until the connection is up, or will not report any more. -/
def awaitConnection : Program Bool :=
  Program.await fun a =>
    match a.connection with
    | .pending => none
    | .up => some (true, a)
    | .dropped => some (false, a)

/-- Reports to the start that the session is ready, if it still waits. -/
def reportReady : Program Bool :=
  Program.await fun a =>
    match a.readiness with
    | .awaited => some (true, { a with readiness := .reported })
    | .reported | .lost | .abandoned => some (false, a)

/-- What a session does once the connection is up. -/
def body : Program (Except SessionError Unit) := do
  if ← awaitConnection then
    let _ ← Login.refresh
    restoreTokens
    restorePeers
    Program.update fun a => { a with started := true }
    if ← reportReady then
      Watch.run
      return .ok ()
    else return .error .stopped
  else return .error (.call .dropped)

/-- A start that still waits will get no report. -/
def withdraw (r : Readiness) : Readiness :=
  match r with
  | .awaited => .lost
  | r => r

/-- Ends a run: the session is no longer started, and what the account holds is stored. -/
def wrapUp (result : Except SessionError Unit) : Program RunOutcome := do
  Program.update fun a => { a with started := false, readiness := withdraw a.readiness }
  Program.shield persist
  return .finished result

/-- A run of the session. If driving the connection crashes, the run is gone on the spot. -/
def run : Program RunOutcome := do
  match ← Program.either link body with
  | .inl .crashed =>
    Program.update fun a => { a with readiness := withdraw a.readiness }
    return .crashed
  | .inl (.ended (.ok ())) => wrapUp (.ok ())
  | .inl (.ended (.error e)) => wrapUp (.error (.call e))
  | .inr result => wrapUp result

/-! ## Starting and stopping -/

/-- Takes the run slot. -/
def takeRun : Program (Option TaskId) :=
  Program.await fun a =>
    match a.run with
    | .free task => some (task, { a with run := .taken })
    | .taken => none

/-- Puts a run back into its slot. -/
def putRun (task : Option TaskId) : Program Unit :=
  Program.update fun a => { a with run := .free task }

/-- Whether a task is alive. -/
def isAlive (task : Option TaskId) : Program Bool := do
  match task with
  | none => return false
  | some t => return (← Program.perform (.outcome? t)).isNone

/-- Waits for the report of the run; false if there will be none. -/
def awaitReady : Program Bool :=
  Program.await fun a =>
    match a.readiness with
    | .reported => some (true, a)
    | .lost => some (false, a)
    | .awaited | .abandoned => none

/-- The error of a run that ended before it was ready. -/
def exitError (outcome : RunOutcome) : SessionError :=
  match outcome.result with
  | .error e => e
  | .ok () => .stopped

/-- Starts a run and waits for it to become ready, with the slot taken. -/
def launch : Program (Except SessionError TaskId) := do
  Program.update fun a => { a with connection := .pending, readiness := .awaited }
  let task ← Program.start run
  match ← Program.either awaitReady
      (Program.either (Program.perform (.join task)) Program.cancelled) with
  | .inl true => return .ok task
  | .inl false =>
    let outcome ← Program.perform (.join task)
    return .error (exitError outcome)
  | .inr (.inl outcome) => return .error (exitError outcome)
  | .inr (.inr ()) =>
    Program.update fun a => { a with readiness := .abandoned }
    Program.perform (.cancel task)
    let _ ← Program.perform (.join task)
    return .error (.call .cancelled)

/-- Starts the session, unless a run is alive. Ends when the session is ready, when its run has
failed, or when the start is cancelled, and the run with it. -/
def start : Program (Except SessionError Unit) := do
  let current ← takeRun
  if ← isAlive current then
    putRun current
    return .error .alreadyRunning
  else
    match ← launch with
    | .ok task =>
      putRun (some task)
      return .ok ()
    | .error e =>
      putRun current
      return .error e

/-- Stops the session and gives the result of its run. -/
def stop : Program (Except SessionError Unit) := do
  let current ← takeRun
  putRun none
  match current with
  | none => return .ok ()
  | some task =>
    Program.perform (.cancel task)
    let outcome ← Program.perform (.join task)
    return outcome.result

end Telebridge.Session
