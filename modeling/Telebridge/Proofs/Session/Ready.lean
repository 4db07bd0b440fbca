import Telebridge.Proofs.Account.Backup
import Telebridge.Proofs.Program.Race
import Telebridge.Proofs.Session.EarlyEnd
import Telebridge.Proofs.Session.WatchStep
set_option autoImplicit false

/-! # Sessions that become ready

A session claims the stored logout tokens, restores what is stored, and reports that it is ready; from
then on it watches who is signed in (`body_eq_restored`). `BecomesReady` are the runs up to the report,
and `EndsReady` those that have ended after it (`EndsReady.run`).

The login flow can only be followed from the moment at which restored tokens are put back, because
whoever has taken it before may put it back without tokens. So the runs have one set of others up to
there and another from there on: with `holding` the others never drop the tokens that are held. -/

namespace Telebridge.Session

open Program

/-! ## The parts of a session -/

/-- The logout tokens that a session takes up from metadata: those that can be read. -/
def restorable (m : Metadata) : List ByteArray :=
  match storedTokens m with
  | .ok tokens => tokens
  | .error _ => []

/-- What a session has claimed when it begins to restore: nothing if the connection will not come up,
no tokens if none are stored, or the login flow, with the stored tokens added. -/
inductive Claim where
  | unconnected
  | noTokens
  | tokens (flow : LoginFlow)

/-- Takes the login flow. -/
def takeFlow : Program LoginFlow :=
  Program.await fun a =>
    match a.login with
    | .free flow => some (flow, { a with login := .taken })
    | .taken => none

/-- The part of a session before it restores anything. -/
def claiming : Program Claim := do
  match ← opening with
  | none => return .unconnected
  | some profile =>
    if (restorable profile.metadata).isEmpty then return .noTokens
    else
      let flow ← takeFlow
      return .tokens (flow.restoreTokens (restorable profile.metadata))

/-- Puts back the login flow, if it was claimed. -/
def putBack : Claim → Program Unit
  | .tokens flow => Program.update fun a => { a with login := .free flow }
  | .unconnected | .noTokens => return ()

/-- Restores the access hashes, and reports to the start. -/
def announce : Program (Except SessionError Unit) := do
  restorePeers
  Program.update fun a => { a with started := true }
  if ← reportReady then return .ok () else return .error .stopped

/-- The part of a session from restoring to the report. -/
def restored : Claim → Program (Except SessionError Unit)
  | .unconnected => return .error (.call .dropped)
  | claim => do
    putBack claim
    announce

/-- The part of a session after the report. -/
def watching : Except SessionError Unit → Program (Except SessionError Unit)
  | .ok () => do
    Watch.run
    return .ok ()
  | .error e => return .error e

theorem takeTokens_eq (profile : Profile) :
    takeTokens profile = if (restorable profile.metadata).isEmpty then return ()
      else Login.restoreTokens (restorable profile.metadata) := by
  unfold takeTokens restorable storedTokens Profile.metadataText
  cases Backup.toTokens ((profile.metadata.get? MetadataKey.auth).getD "") <;> rfl

theorem restoring_eq (profile : Profile) :
    restoring (some profile) = (takeTokens profile).bind fun _ => announce.bind watching := by
  simp only [restoring, announce, bind_eq_bind, bind_assoc]
  congr 1
  funext _
  congr 1
  funext _
  congr 1
  funext _
  congr 1
  funext up
  cases up <;> rfl

theorem body_eq_restored : body = (claiming.bind restored).bind watching := by
  rw [body_eq, claiming]
  simp only [bind_eq_bind, bind_assoc]
  congr 1
  funext o
  cases o with
  | none => rfl
  | some profile =>
    rw [restoring_eq, takeTokens_eq]
    cases hempty : (restorable profile.metadata).isEmpty with
    | true =>
      simp only [hempty, if_true]
      rfl
    | false =>
      simp only [hempty, Bool.false_eq_true, if_false]
      rfl

/-! ## Runs of a session that becomes ready -/

/-- A run of a session up to its report that it is ready, with `l` left of driving the connection. From
the moment at which logout tokens are put back the others are `S`. -/
def BecomesReady (R S : Others) (a : Account) (t : List Event) (l : Program LinkExit)
    (b : Account) : Prop :=
  ∃ claim l₁ u v a₁, t = u ++ v ∧ Run R (either link claiming) a u (either l₁ (.done claim)) a₁ ∧
    Run S (either l₁ (restored claim)) a₁ v (either l (.done (.ok ()))) b

/-- A finished run of a session that became ready. While it is wrapped up, the others are `Q`. -/
def EndsReady (R S Q : Others) (a : Account) (t : List Event) (result : Except SessionError Unit)
    (b : Account) : Prop :=
  ∃ l u v w o a₁ a₂, t = u ++ (v ++ w) ∧ BecomesReady R S a u l a₁ ∧
    Run S (either l (watching (.ok ()))) a₁ v (.done o) a₂ ∧
    Run Q (conclude o) a₂ w (.done (.finished result)) b

theorem BecomesReady.run {R : Others} {a b : Account} {t : List Event} {l : Program LinkExit}
    (h : BecomesReady R R a t l b) :
    Run R (either link (claiming.bind restored)) a t (either l (.done (.ok ()))) b := by
  obtain ⟨claim, l₁, u, v, a₁, rfl, hclaim, hrestored⟩ := h
  exact (hclaim.either_bind_right restored).append hrestored

/-- Such a run is a run of the session. -/
theorem EndsReady.run {R : Others} {a b : Account} {t : List Event}
    {result : Except SessionError Unit} (h : EndsReady R R R a t result b) :
    Run R run a t (.done (.finished result)) b := by
  obtain ⟨l, u, v, w, o, a₁, a₂, rfl, hready, hwatch, hend⟩ := h
  rw [run_eq, body_eq_restored, ← List.append_assoc]
  exact ((hready.run.either_bind_right watching).append hwatch).bind hend

/-- The others may be more. -/
theorem BecomesReady.mono {R R' S S' : Others} {a b : Account} {t : List Event}
    {l : Program LinkExit} (hR : ∀ a b, R.may a b → R'.may a b) (hS : ∀ a b, S.may a b → S'.may a b)
    (h : BecomesReady R S a t l b) : BecomesReady R' S' a t l b := by
  obtain ⟨claim, l₁, u, v, a₁, rfl, hclaim, hrestored⟩ := h
  exact ⟨claim, l₁, u, v, a₁, rfl, hclaim.mono hR, hrestored.mono hS⟩

theorem EndsReady.mono {R R' S S' Q Q' : Others} {a b : Account} {t : List Event}
    {result : Except SessionError Unit} (hR : ∀ a b, R.may a b → R'.may a b)
    (hS : ∀ a b, S.may a b → S'.may a b) (hQ : ∀ a b, Q.may a b → Q'.may a b)
    (h : EndsReady R S Q a t result b) : EndsReady R' S' Q' a t result b := by
  obtain ⟨l, u, v, w, o, a₁, a₂, rfl, hready, hwatch, hend⟩ := h
  exact ⟨l, u, v, w, o, a₁, a₂, rfl, hready.mono hR hS, hwatch.mono hS, hend.mono hQ⟩

end Telebridge.Session
