import Telebridge.Proofs.Program.Ensemble
import Telebridge.Proofs.Session.Ending
set_option autoImplicit false

/-! # The runs of a session

The background tasks of an account are the runs of its session. `Orderly` is what holds of them at any
moment: at most one is alive, and the session is started only while one is, provided that none crashes once
the session has started. The steps of the runs and of the others keep it (`Orderly.step`), and so does
whatever calls do (`Orderly.handles`), as long as they start a run only where none is alive.

That is why a session knows its run: between calls the run slot has the one that is alive, if there is one
(`AtRest`). -/

namespace Telebridge

open Program Ensemble

/-- The others leave to the calls and the runs what is theirs. -/
structure Others.Aside (R : Others) : Prop where
  started : ∀ a b, R.may a b → b.started = a.started
  run : ∀ a b, R.may a b → b.run = a.run

namespace Session

variable {R : Others} {may : Account → RunOutcome → Prop} {w w' : Ensemble} {s : Option TaskId}

/-! ## Runs in the background -/

/-- A run crashes only before the session has started. -/
def CrashesEarly (may : Account → RunOutcome → Prop) : Prop :=
  ∀ a, may a .crashed → a.started = false

/-- What holds of a session at any moment, also in the middle of a call: its tasks are runs, at most one
of them is alive, and the session is started only as long as one is, if no run crashes late. -/
structure Orderly (R : Others) (may : Account → RunOutcome → Prop) (w : Ensemble) : Prop where
  runs : ∀ (t : TaskId) c p, w.tasks[t]? = some (.alive c p) →
    p.Conforms R .sameRun (fun _ => True) (fun _ => True) ∧
      ∃ a es, Run .sameStarted run a es p w.account
  single : ∀ t t', w.Lives t → w.Lives t' → t = t'
  results : ∀ t o, w.outcome? t = some o → o.result ≠ .error .alreadyRunning
  started : CrashesEarly may → w.account.started = true → ∃ t, w.Lives t

/-- What calls do in the background and to the account: they leave to the runs whether the session is
started, and start a run only if none is alive. -/
inductive Handles : Ensemble → Ensemble → Prop
  | account {w : Ensemble} {a : Account} (h : a.started = w.account.started) :
      Handles w { w with account := a }
  | cancel (w : Ensemble) (t : TaskId) : Handles w (w.cancel t)
  | spawn {w : Ensemble} (h : ∀ t, ¬ w.Lives t) : Handles w (w.spawn run)

theorem Handles.refl (w : Ensemble) : Handles w w := .account (w := w) rfl

namespace Orderly

theorem others {a : Account} (h : Orderly R may w) (ha : a.started = w.account.started) :
    Orderly R may { w with account := a } where
  runs t c p ht := by
    obtain ⟨hp, a₀, es, hrun⟩ := h.runs t c p ht
    exact ⟨hp, a₀, es, hrun.before_others ha⟩
  single := h.single
  results := h.results
  started hmay hstarted := h.started hmay (ha.symm.trans hstarted)

theorem step (hR : R.Aside) (h : Orderly R may w) (hs : Ensemble.Step R may w w') :
    Orderly R may w' := by
  have hsingle (t t' : TaskId) (ht : w'.Lives t) (ht' : w'.Lives t') : t = t' :=
    h.single t t' (Reaches.lives (.single hs) ht) (Reaches.lives (.single hs) ht')
  cases hs with
  | others ha => exact h.others (hR.started _ _ ha)
  | @works t c p q es a ht hs hc =>
    obtain ⟨hp, a₀, es₀, hrun⟩ := h.runs t c p ht
    have hlives : Ensemble.Lives ⟨a, w.tasks.set t (.alive c q)⟩ t :=
      ⟨c, q, by rw [getElem?_set ht, if_pos rfl]⟩
    refine ⟨fun t' c' p' ht' => ?_, hsingle, fun t' o ho => ?_, fun _ _ => ⟨t, hlives⟩⟩
    · obtain rfl := hsingle t' t ⟨c', p', ht'⟩ hlives
      rw [getElem?_set ht, if_pos rfl] at ht'
      cases ht'
      exact ⟨(hs.conforms hp fun _ _ => trivial).2.2, a₀, _, hrun.append (.single (hs.mono hR.started))⟩
    · rw [outcome?_eq_some_iff, getElem?_set ht] at ho
      split at ho
      · cases ho
      · exact h.results t' o (outcome?_eq_some_iff.2 ho)
  | @ends t c o ht ho =>
    obtain ⟨-, a₀, es, hrun⟩ := h.runs t c _ ht
    refine ⟨fun t' c' p' ht' => ?_, hsingle, fun t' o' ho' => ?_, fun hmay hstarted => ?_⟩
    · rw [getElem?_set ht] at ht'
      split at ht'
      · cases ht'
      · exact h.runs t' c' p' ht'
    · rw [outcome?_eq_some_iff, getElem?_set ht] at ho'
      split at ho'
      · cases ho'
        exact result_ne_alreadyRunning hrun
      · exact h.results t' o' (outcome?_eq_some_iff.2 ho')
    · -- the end of a run takes the session down, and so a crash can only have come before
      have hdown : w.account.started = false := by
        cases o with
        | finished result => exact started_of_finished hrun
        | crashed => exact hmay _ ho
      rw [hdown] at hstarted
      cases hstarted

theorem handles (hR : R.Aside) (h : Orderly R may w) (hs : Handles w w') : Orderly R may w' := by
  cases hs with
  | account ha => exact h.others ha
  | cancel t =>
    refine ⟨fun t' c p ht' => ?_, fun t₁ t₂ h₁ h₂ => ?_, fun t' o ho => ?_, fun hmay hstarted => ?_⟩
    · obtain ⟨c', ht', -⟩ := alive_of_cancel ht'
      exact h.runs t' c' p ht'
    · exact h.single t₁ t₂ (lives_of_cancel h₁) (lives_of_cancel h₂)
    · exact h.results t' o ((outcome?_cancel w t t').symm.trans ho)
    · obtain ⟨t', ht'⟩ := h.started hmay hstarted
      exact ⟨t', lives_cancel ht'⟩
  | spawn hnone =>
    have hlives (t : TaskId) (ht : (w.spawn run).Lives t) : t = w.tasks.length := by
      obtain ⟨c, p, ht⟩ := ht
      obtain ht | ⟨rfl, -⟩ := alive_of_spawn ht
      · exact absurd ⟨c, p, ht⟩ (hnone t)
      · rfl
    refine ⟨fun t c p ht => ?_, fun t t' ht ht' => ?_, fun t o ho => ?_, fun _ _ => ?_⟩
    · obtain ht | ⟨-, rfl⟩ := alive_of_spawn ht
      · exact h.runs t c p ht
      · exact ⟨conforms_run hR.run, _, [], .refl _ _⟩
    · rw [hlives t ht, hlives t' ht']
    · exact h.results t o ((outcome?_spawn w run t).symm.trans ho)
    · exact ⟨_, lives_spawn w run⟩

theorem reaches (hR : R.Aside) (h : Orderly R may w) (hw : Reaches R may w w') :
    Orderly R may w' := by
  induction hw with
  | refl => exact h
  | tail _ hs ih => exact ih.step hR hs

/-- Only calls touch the run slot. -/
theorem run_reaches (hR : R.Aside) (h : Orderly R may w) (hw : Reaches R may w w') :
    w'.account.run = w.account.run := by
  induction hw with
  | refl => rfl
  | tail hu hs ih =>
    refine Eq.trans ?_ ih
    cases hs with
    | others ha => exact hR.run _ _ ha
    | works ht hs _ =>
      have hp := ((h.reaches hR hu).runs _ _ _ ht).1
      exact (hs.conforms hp fun _ _ => trivial).1
    | ends _ _ => rfl

end Orderly

/-! ## The run that is known -/

/-- If a run is alive, it is the one that is known. -/
structure Tended (R : Others) (may : Account → RunOutcome → Prop) (s : Option TaskId) (w : Ensemble) :
    Prop where
  orderly : Orderly R may w
  lives : ∀ t, w.Lives t → s = some t
  valid : ∀ t, s = some t → t < w.tasks.length

/-- There is no call under way: the slot has the run that is known. -/
structure AtRest (R : Others) (may : Account → RunOutcome → Prop) (s : Option TaskId) (w : Ensemble) :
    Prop extends Tended R may s w where
  slot : w.account.run = .free s

namespace Tended

theorem reaches (hR : R.Aside) (h : Tended R may s w) (hw : Reaches R may w w') :
    Tended R may s w' where
  orderly := h.orderly.reaches hR hw
  lives t ht := h.lives t (hw.lives ht)
  valid t ht := Nat.lt_of_lt_of_le (h.valid t ht) hw.later.length

theorem account {a : Account} (h : Tended R may s w) (ha : a.started = w.account.started) :
    Tended R may s { w with account := a } where
  orderly := h.orderly.others ha
  lives := h.lives
  valid := h.valid

theorem cancel (hR : R.Aside) (h : Tended R may s w) (t : TaskId) : Tended R may s (w.cancel t) where
  orderly := h.orderly.handles hR (.cancel w t)
  lives t' ht' := h.lives t' (lives_of_cancel ht')
  valid t' ht' := Nat.lt_of_lt_of_le (h.valid t' ht') (later_cancel w t).length

/-- A run that is started where none is alive is known. -/
theorem spawn (hR : R.Aside) (h : Tended R may none w) :
    Tended R may (some w.tasks.length) (w.spawn run) where
  orderly := h.orderly.handles hR (.spawn fun t ht => nomatch h.lives t ht)
  lives t ht := by
    obtain ⟨c, p, ht⟩ := ht
    obtain ht | ⟨rfl, -⟩ := alive_of_spawn ht
    · exact nomatch h.lives t ⟨c, p, ht⟩
    · rfl
  valid t ht := by
    cases ht
    exact (lives_spawn w run).lt

/-- Where no run is alive, any may be the one that is known. -/
theorem of_none (h : Tended R may none w) (hs : ∀ t, s = some t → t < w.tasks.length) :
    Tended R may s w where
  orderly := h.orderly
  lives t ht := nomatch h.lives t ht
  valid := hs

theorem none (h : Tended R may s w) (hnone : ∀ t, ¬ w.Lives t) : Tended R may none w where
  orderly := h.orderly
  lives t ht := absurd ht (hnone t)
  valid _ ht := nomatch ht

/-- If the known run has ended, none is alive. -/
theorem none_of_ended {t : TaskId} {o : RunOutcome} (h : Tended R may (some t) w)
    (ho : w.outcome? t = some o) : Tended R may .none w := by
  refine h.none fun t' ht' => ?_
  cases h.lives t' ht'
  have hnone := ht'.outcome?
  rw [ho] at hnone
  cases hnone

/-- The slot is put back. -/
theorem put (h : Tended R may s w) :
    AtRest R may s { w with account := { w.account with run := .free s } } :=
  { h.account (a := { w.account with run := .free s }) rfl with slot := rfl }

end Tended

theorem AtRest.reaches (hR : R.Aside) (h : AtRest R may s w) (hw : Reaches R may w w') :
    AtRest R may s w' :=
  { h.toTended.reaches hR hw with slot := (h.orderly.run_reaches hR hw).trans h.slot }

end Session

end Telebridge
