import Telebridge.Proofs.Program.Calling
import Telebridge.Proofs.Session.Background
import Telebridge.Proofs.Session.Restart
set_option autoImplicit false

/-! # Starting and stopping a session

A session is started and stopped by calls, one after the other, while its runs go on in the background.
`Starts` and `Stops` are what comes of a single call (`start_answers`, `stop_answers`), and `Lifecycle`
is what can be relied on whatever calls there have been before (`reached_lifecycle`): a start finds the
run that is alive, or leaves none alive if it fails, and a stop ends the run and gives its result.

Two things cannot be relied on (`dead_run_lingers`). The session is taken down by its run, so it remains
started if that crashes. And a start that fails leaves in the slot the run that was there before, which
has ended long ago; a later stop gives the result of that one. -/

namespace Telebridge

open Program Ensemble

namespace Session

variable {R : Others} {may : Account → RunOutcome → Prop} {w w' : Ensemble} {s : Option TaskId}

/-! ## Starting -/

/-- The account with the run slot taken. -/
def taken (w : Ensemble) : Ensemble :=
  { w with account := { w.account with run := .taken } }

/-- The account with a run put into the slot. -/
def put (s : Option TaskId) (w : Ensemble) : Ensemble :=
  { w with account := { w.account with run := .free s } }

/-- A start looks once, with the slot taken, and says that a run is alive exactly if one is. If so, nothing
is done but to put the slot back. -/
def Looks (R : Others) (may : Account → RunOutcome → Prop) (s : Option TaskId) (w : Ensemble)
    (result : Except SessionError Unit) (w' : Ensemble) : Prop :=
  ∃ u v, Reaches R may w u ∧ Reaches R may (taken u) v ∧
    (result = .error .alreadyRunning ↔ ∃ t, v.Lives t) ∧
    (result = .error .alreadyRunning → ∃ x, Reaches R may v x ∧ Reaches R may (put s x) w')

/-- The run in the slot after a start: the new one, or after an error the one before. -/
def slotAfter (s : Option TaskId) (new : TaskId) : Except SessionError Unit → Option TaskId
  | .ok () => some new
  | .error _ => s

/-- What comes of a start. -/
structure Starts (R : Others) (may : Account → RunOutcome → Prop) (s : Option TaskId) (w : Ensemble)
    (result : Except SessionError Unit) (w' : Ensemble) : Prop where
  looks : Looks R may s w result w'
  /-- If a run is alive all the time, that is what is said. -/
  alive : ∀ t, w.Lives t → w'.Lives t → result = .error .alreadyRunning
  /-- After any other error no run is alive. -/
  fails : ∀ e, result = .error e → e ≠ .alreadyRunning → ∀ t, ¬ w'.Lives t
  rests : AtRest R may (slotAfter s w.tasks.length result) w'

/-- The slot is taken by the call. -/
theorem takeRun_answers {α : Type} {B : Ensemble → Prop} {Q : α → Ensemble → Prop}
    {k : Option TaskId → Program α} (hR : R.Aside) (h : AtRest R may s w)
    (must : ∀ u, Reaches R may w u → Tended R may s (taken u) →
      Answers R may Handles B Q (k s) (taken u)) :
    Answers R may Handles B Q (takeRun >>= k) w := by
  refine Answers.await (fun u hu => .inr ⟨s, { u.account with run := .taken }, ?_⟩)
    fun u current a hu hf => ?_
  · rw [(h.reaches hR hu).slot]
  · rw [(h.reaches hR hu).slot] at hf
    cases hf
    exact ⟨.account rfl, must u hu ((h.toTended.reaches hR hu).account rfl)⟩

/-- Whether the known run is alive is whether any is, at the moment of the look. -/
theorem isAlive_answers {B : Ensemble → Prop} (h : Tended R may s w) :
    Answers R may Handles B
      (fun alive w' => ∃ u, Reaches R may w u ∧ Reaches R may u w' ∧
        (alive = true ↔ ∃ t, u.Lives t)) (isAlive s) w := by
  cases s with
  | none =>
    refine .done fun w' hw' => ⟨w, .refl, hw', nofun, ?_⟩
    rintro ⟨t, ht⟩
    exact nomatch h.lives t ht
  | some t =>
    refine Answers.outcome? fun u hu => ⟨.refl u, .done fun w' hw' => ⟨u, hu, hw', fun halive => ?_, ?_⟩⟩
    · obtain hlives | ⟨o, ho⟩ := lives_or_ended (w := u) (t := t) (hu.length ▸ h.valid t rfl)
      · exact ⟨t, hlives⟩
      · rw [ho] at halive
        cases halive
    · rintro ⟨t', ht'⟩
      cases h.lives t' (hu.lives ht')
      rw [ht'.outcome?]
      rfl

theorem exitError_ne {o : RunOutcome} (h : o.result ≠ .error .alreadyRunning) :
    exitError o ≠ .alreadyRunning := by
  unfold exitError
  cases hresult : o.result with
  | ok => exact nofun
  | error e =>
    rintro rfl
    exact h hresult

/-! ### A new run -/

/-- A run that was started after `w` is the one that is known. -/
structure Newest (R : Others) (may : Account → RunOutcome → Prop) (w : Ensemble) (t : TaskId)
    (u : Ensemble) : Prop where
  tended : Tended R may (some t) u
  later : w.Later u

/-- What comes of the start of a new run. -/
def Launched (R : Others) (may : Account → RunOutcome → Prop) (w : Ensemble) :
    Except SessionError TaskId → Ensemble → Prop
  | .ok t, u => t = w.tasks.length ∧ Newest R may w t u
  | .error e, u => e ≠ .alreadyRunning ∧ Tended R may none u ∧ w.Later u

namespace Newest

variable {t : TaskId} {u v : Ensemble}

theorem reaches (hR : R.Aside) (h : Newest R may w t u) (hv : Reaches R may u v) : Newest R may w t v :=
  ⟨h.tended.reaches hR hv, h.later.trans hv.later⟩

theorem account {a : Account} (h : Newest R may w t u) (ha : a.started = u.account.started) :
    Newest R may w t { u with account := a } :=
  ⟨h.tended.account ha, h.later.trans (later_account u a)⟩

theorem cancel (hR : R.Aside) (h : Newest R may w t u) : Newest R may w t (u.cancel t) :=
  ⟨h.tended.cancel hR t, h.later.trans (later_cancel u t)⟩

/-- A start fails when the new run has ended. -/
theorem fails {o : RunOutcome} {e : RunOutcome → SessionError} (hR : R.Aside) (h : Newest R may w t u)
    (he : ∀ o, o.result ≠ .error .alreadyRunning → e o ≠ .alreadyRunning)
    (ho : u.outcome? t = some o) (hv : Reaches R may u v) : Launched R may w (.error (e o)) v :=
  ⟨he o (h.tended.orderly.results t o ho), (h.tended.none_of_ended ho).reaches hR hv,
    h.later.trans hv.later⟩

/-- The end of the run is awaited, and the start fails. -/
theorem join_answers {e : RunOutcome → SessionError} (hR : R.Aside) (h : Newest R may w t u)
    (he : ∀ o, o.result ≠ .error .alreadyRunning → e o ≠ .alreadyRunning) :
    Answers R may Handles (fun v => v.Lives t) (Launched R may w)
      (perform (.join t) >>= fun o => return .error (e o)) u := by
  refine Answers.join (fun v hv => ?_) fun v o hv ho => ⟨.refl v, .done fun v' hv' => ?_⟩
  · exact lives_or_ended (hv.length ▸ h.tended.valid t rfl)
  · exact (h.reaches hR hv).fails hR he ho hv'

/-- The start is cancelled, and the run with it. -/
theorem abandon_answers (hR : R.Aside) (h : Newest R may w t u) :
    Answers R may Handles (fun v => v.Lives t) (Launched R may w)
      (do
        Program.update fun a => { a with readiness := .abandoned }
        perform (.cancel t)
        let _ ← perform (.join t)
        return .error (.call .cancelled)) u := by
  refine Answers.update fun v hv => ⟨.account rfl, ?_⟩
  have hgone : Newest R may w t { v with account := { v.account with readiness := .abandoned } } :=
    (h.reaches hR hv).account rfl
  refine Answers.cancel fun v' hv' => ⟨.cancel v' t, ?_⟩
  exact join_answers hR ((hgone.reaches hR hv').cancel hR) fun _ _ => nofun

end Newest

/-- Whether the run is ready is awaited without a change. -/
theorem awaitReady_answers :
    Answers R may Eq (fun _ => True) (fun _ _ => True) awaitReady w := by
  refine Answers.awaits fun a b a' hf => ?_
  split at hf <;> cases hf <;> rfl

/-- The end of a run is awaited, or a cancellation. -/
theorem exit_answers {t : TaskId} (ht : t < w.tasks.length) :
    Answers R may Eq (fun u => u.Lives t) (fun r u => ∀ o, r = .inl o → u.outcome? t = some o)
      (Program.either (perform (.join t)) Program.cancelled) w := by
  refine Answers.race (fun _ => rfl) (fun _ h _ => h) (Answers.joins ht) Answers.cancelled ?_ ?_
  · intro o u hu ho
    refine .done fun v hv o' heq => ?_
    cases heq
    exact ho v hv
  · exact fun _ u _ _ => .done fun v _ o heq => nomatch heq

/-- A new run is started where none is alive. The call waits only for that run, and if it fails the run
has ended. -/
theorem launch_answers (hR : R.Aside) (h : Tended R may none w) :
    Answers R may Handles (fun w' => w'.Lives w.tasks.length) (Launched R may w) launch w := by
  unfold launch
  refine Answers.update fun u hu => ⟨.account rfl, ?_⟩
  have hprepared : Tended R may none
      { u with account := { u.account with connection := .pending, readiness := .awaited } } :=
    (h.reaches hR hu).account rfl
  refine Answers.start fun v hv => ?_
  have hidle := hprepared.reaches hR hv
  refine ⟨.spawn fun t ht => (nomatch hidle.lives t ht), ?_⟩
  have hnew : Newest R may w v.tasks.length (v.spawn run) :=
    ⟨hidle.spawn hR,
      hu.later.trans ((later_account _ _).trans (hv.later.trans (later_spawn v run)))⟩
  rw [show v.tasks.length = w.tasks.length from hv.length.trans hu.length] at hnew ⊢
  refine Answers.race Handles.refl (fun _ _ h => h) awaitReady_answers
    (exit_answers (hnew.tended.valid _ rfl)) ?_ ?_
  · intro ready x hx _
    cases ready with
    | true => exact .done fun w' hw' => ⟨rfl, (hnew.reaches hR hx).reaches hR hw'⟩
    | false => exact (hnew.reaches hR hx).join_answers hR fun _ => exitError_ne
  · intro exit x hx hexit
    cases exit with
    | inl o =>
      exact .done fun w' hw' => (hnew.reaches hR hx).fails hR (fun _ => exitError_ne)
        (hexit x .refl o rfl) hw'
    | inr _ => exact (hnew.reaches hR hx).abandon_answers hR

/-! ### The start -/

/-- What a start does. It waits only for a run that it has started. -/
theorem start_answers (hR : R.Aside) (h : AtRest R may s w) :
    Answers R may Handles (fun w' => w'.Lives w.tasks.length) (Starts R may s w) start w := by
  unfold start
  refine takeRun_answers hR h fun u hu h₁ => ?_
  refine (isAlive_answers h₁).bind fun alive v hv => ?_
  obtain ⟨x, hux, hxv, halive⟩ := hv v .refl
  have huv : Reaches R may (taken u) v := hux.trans hxv
  cases alive with
  | true =>
    refine Answers.update fun y hy => ⟨.account rfl, .done fun w' hw' => ?_⟩
    exact
      { looks := ⟨u, x, hu, hux, ⟨fun _ => halive.1 rfl, fun _ => rfl⟩, fun _ => ⟨y, hxv.trans hy, hw'⟩⟩
        alive := fun _ _ _ => rfl
        fails := fun e he hne => absurd (Except.error.inj he).symm hne
        rests := (h₁.reaches hR (huv.trans hy)).put.reaches hR hw' }
  | false =>
    have hidle (t : TaskId) (ht : x.Lives t) : False := nomatch halive.2 ⟨t, ht⟩
    have hlength : v.tasks.length = w.tasks.length := (Reaches.length huv).trans hu.length
    have hlooks {r : Except SessionError Unit} (w' : Ensemble) (hr : r ≠ .error .alreadyRunning) :
        Looks R may s w r w' :=
      ⟨u, x, hu, hux, ⟨fun h => absurd h hr, fun ⟨t, ht⟩ => (hidle t ht).elim⟩, fun h => absurd h hr⟩
    -- a run that was alive before has ended by then
    have hgone {w' : Ensemble} (hlater : v.Later w') (t : TaskId) (ht : w.Lives t) (ht' : w'.Lives t) :
        False := hidle t (hxv.lives (hlater.lives (hlength ▸ ht.lt) ht'))
    have hlaunch := launch_answers hR ((h₁.reaches hR huv).none fun t ht => hidle t (hxv.lives ht))
    rw [hlength] at hlaunch
    refine hlaunch.bind fun r y hr => ?_
    cases r with
    | ok t =>
      refine Answers.update fun z hz => ⟨.account rfl, .done fun w' hw' => ?_⟩
      obtain ⟨rfl, hnew, hlater⟩ := hr z hz
      have hlater' : v.Later w' := hlater.trans ((later_account z _).trans hw'.later)
      rw [hlength] at hnew hw'
      exact
        { looks := hlooks w' nofun
          alive := fun t ht ht' => (hgone hlater' t ht ht').elim
          fails := nofun
          rests := hnew.put.reaches hR hw' }
    | error e =>
      refine Answers.update fun z hz => ⟨.account rfl, .done fun w' hw' => ?_⟩
      obtain ⟨he, hnone, hlater⟩ := hr z hz
      have hlater' : v.Later w' := hlater.trans ((later_account z _).trans hw'.later)
      have hvalid (t : TaskId) (ht : s = some t) : t < z.tasks.length :=
        Nat.lt_of_lt_of_le (h.valid t ht) (hlength ▸ hlater.length)
      have hput : Tended R may none (put s z) := hnone.account rfl
      exact
        { looks := hlooks w' fun heq => he (Except.error.inj heq)
          alive := fun t ht ht' => (hgone hlater' t ht ht').elim
          fails := fun _ _ _ t ht => nomatch (hput.reaches hR hw').lives t ht
          rests := (hnone.of_none hvalid).put.reaches hR hw' }

/-! ## Stopping -/

/-- What comes of a stop. -/
structure Stops (R : Others) (may : Account → RunOutcome → Prop) (s : Option TaskId) (w : Ensemble)
    (result : Except SessionError Unit) (w' : Ensemble) : Prop where
  /-- No run is alive, and none is known. -/
  rests : AtRest R may none w'
  /-- A run that was alive has ended, and its result is given. -/
  ends : ∀ t, w.Lives t → ∃ o, w'.outcome? t = some o ∧ result = o.result
  /-- The result is that of the run in the slot, whoever ended it. -/
  known : ∀ t, s = some t → ∃ o, w'.outcome? t = some o ∧ result = o.result
  /-- Where there is no run in the slot, all is well. -/
  nothing : s = none → result = .ok ()

/-- What a stop does. It waits only for a run that it has cancelled. -/
theorem stop_answers (hR : R.Aside) (h : AtRest R may s w) :
    Answers R may Handles (fun w' => ∃ (t : TaskId) (p : _), w'.tasks[t]? = some (.alive true p))
      (Stops R may s w) stop w := by
  unfold stop
  refine takeRun_answers hR h fun u hu h₁ => ?_
  refine Answers.update fun v hv => ⟨.account rfl, ?_⟩
  have h₂ : Tended R may s (put none v) := (h₁.reaches hR hv).account rfl
  cases s with
  | none =>
    refine .done fun w' hw' => ?_
    have hrests : AtRest R may none (put none v) := { h₂ with slot := rfl }
    exact
      { rests := hrests.reaches hR hw'
        ends := fun t ht => (nomatch h.lives t ht)
        known := nofun
        nothing := fun _ => rfl }
  | some t =>
    refine Answers.cancel fun x hx => ⟨.cancel x t, ?_⟩
    have h₃ := (h₂.reaches hR hx).cancel hR t
    have hfree : x.account.run = .free none := h₂.orderly.run_reaches hR hx
    refine Answers.join (fun y hy => ?_) fun y o hy ho => ⟨.refl y, .done fun w' hw' => ?_⟩
    · obtain ⟨c, p, ht⟩ | hended := lives_or_ended (w := y) (hy.length ▸ h₃.valid t rfl)
      · -- the token was cancelled before
        obtain ⟨q, hq⟩ := hy.alive ht
        obtain ⟨-, -, hc⟩ := alive_of_cancel hq
        obtain rfl := hc rfl
        exact .inl ⟨t, p, ht⟩
      · exact .inr hended
    · have hrests : AtRest R may none y :=
        { (h₃.reaches hR hy).none_of_ended ho with
          slot := (h₃.orderly.run_reaches hR hy).trans hfree }
      have hended : w'.outcome? t = some o := hw'.later.ended t o ho
      exact
        { rests := hrests.reaches hR hw'
          ends := fun t' ht' => by
            cases h.lives t' ht'
            exact ⟨o, hended, rfl⟩
          known := fun t' ht' => by
            cases ht'
            exact ⟨o, hended, rfl⟩
          nothing := nofun }

/-! ## Any sequence of calls -/

/-- What can come of a session that has not been started yet: steps of its runs and of the others, and
calls one after the other. -/
inductive Reached (R : Others) (may : Account → RunOutcome → Prop) : Ensemble → Prop
  | fresh {a : Account} (hrun : a.run = .free none) (hstarted : a.started = false) :
      Reached R may ⟨a, []⟩
  | step {w w' : Ensemble} (h : Reached R may w) (hs : Ensemble.Step R may w w') : Reached R may w'
  | start {w w' : Ensemble} {r : Except SessionError Unit} (h : Reached R may w)
      (hc : Calling R may start w (.done r) w') : Reached R may w'
  | stop {w w' : Ensemble} {r : Except SessionError Unit} (h : Reached R may w)
      (hc : Calling R may stop w (.done r) w') : Reached R may w'

theorem atRest_fresh {a : Account} (hrun : a.run = .free none) (hstarted : a.started = false) :
    AtRest R may none ⟨a, []⟩ where
  orderly :=
    { runs := nofun
      single := fun t _ ht => (nomatch ht)
      results := nofun
      started := fun _ h => by
        rw [hstarted] at h
        cases h }
  lives := fun t ht => (nomatch ht)
  valid := nofun
  slot := hrun

theorem Reached.atRest (hR : R.Aside) (h : Reached R may w) : ∃ s, AtRest R may s w := by
  induction h with
  | fresh hrun hstarted => exact ⟨none, atRest_fresh hrun hstarted⟩
  | step _ hs ih =>
    obtain ⟨s, hs'⟩ := ih
    exact ⟨s, hs'.reaches hR (.single hs)⟩
  | start _ hc ih =>
    obtain ⟨s, hs⟩ := ih
    exact ⟨_, ((start_answers hR hs).result hc).rests⟩
  | stop _ hc ih =>
    obtain ⟨s, hs⟩ := ih
    exact ⟨_, ((stop_answers hR hs).result hc).rests⟩

/-- A call that has come to `q`, perhaps its end: the session is started only while a run is alive, the
call waits only while `B`, and `Q` holds at its end. -/
structure UnderWay (R : Others) (may : Account → RunOutcome → Prop) (B : Ensemble → Prop)
    (Q : Except SessionError Unit → Ensemble → Prop) (q : Program (Except SessionError Unit))
    (w : Ensemble) : Prop where
  started : CrashesEarly may → w.account.started = true → ∃ t, w.Lives t
  going : (∃ r, q = .done r) ∨ B w ∨ ∃ q' v, Move R false q w q' v
  ends : ∀ r, q = .done r → Q r w

/-- What can be relied on when a session is started and stopped, with the run `s` in its slot. -/
structure Lifecycle (R : Others) (may : Account → RunOutcome → Prop) (s : Option TaskId) (w : Ensemble) :
    Prop where
  slot : w.account.run = .free s
  started : CrashesEarly may → w.account.started = true → ∃ t, w.Lives t
  /-- A start waits only for the run that it has started. -/
  starting : ∀ q w', Calling R may start w q w' →
    UnderWay R may (fun u => u.Lives w.tasks.length) (Starts R may s w) q w'
  /-- A stop waits only for a run that it has cancelled. -/
  stopping : ∀ q w', Calling R may stop w q w' →
    UnderWay R may (fun u => ∃ (t : TaskId) (p : _), u.tasks[t]? = some (.alive true p)) (Stops R may s w)
      q w'
  /-- With no start in between there is nothing left to stop. -/
  again : ∀ r u v r' w', Calling R may stop w (.done r) u → Reaches R may u v →
    Calling R may stop v (.done r') w' → r' = .ok ()

theorem underWay {B : Ensemble → Prop} {Q : Except SessionError Unit → Ensemble → Prop}
    {p q : Program (Except SessionError Unit)} (hR : R.Aside) (h : Orderly R may w)
    (ha : Answers R may Handles B Q p w) (hc : Calling R may p w q w') : UnderWay R may B Q q w' where
  started := (ha.invariant (fun _ _ hs h => h.step hR hs) (fun _ _ hs h => h.handles hR hs) hc h).started
  going := by
    obtain ⟨r, rfl, -⟩ | hgoing := (ha.calling hc).now
    · exact .inl ⟨r, rfl⟩
    · exact .inr hgoing
  ends := by
    rintro r rfl
    exact ha.result hc

theorem AtRest.lifecycle (hR : R.Aside) (h : AtRest R may s w) : Lifecycle R may s w where
  slot := h.slot
  started := h.orderly.started
  starting _ _ hc := underWay hR h.orderly (start_answers hR h) hc
  stopping _ _ hc := underWay hR h.orderly (stop_answers hR h) hc
  again _ _ _ _ _ hc hv hc' :=
    ((stop_answers hR (((stop_answers hR h).result hc).rests.reaches hR hv)).result hc').nothing rfl

/-! ## Calls that come to their end -/

/-- A new run has just been started. -/
def launched (w : Ensemble) : Ensemble :=
  Ensemble.spawn
    { w with account := { w.account with run := .taken, connection := .pending, readiness := .awaited } }
    run

/-- A start may come to its end when the new run is ready, or has ended. -/
theorem calling_start (hslot : w.account.run = .free s)
    (hended : ∀ t, s = some t → (w.outcome? t).isSome) {u : Ensemble}
    (hu : Reaches R may (launched w) u) :
    (u.account.readiness = .reported →
      Calling R may start w (.done (.ok ())) (put (some w.tasks.length) u)) ∧
    ∀ o, u.outcome? w.tasks.length = some o →
      Calling R may start w (.done (.error (exitError o))) (put s u) := by
  have htake : Calling R may takeRun w (.done s) (taken w) := .await (by rw [hslot])
  have halive : Calling R may (isAlive s) (taken w) (.done false) (taken w) := by
    cases s with
    | none => exact .stop .refl
    | some t =>
      have hsome : (w.outcome? t).isNone = false := by
        rw [← Option.not_isSome, hended t rfl]
        rfl
      have hask : Calling R may (isAlive (some t)) (taken w) (.done (w.outcome? t).isNone) (taken w) :=
        (Calling.outcome? t).bind (.stop .refl)
      rwa [hsome] at hask
  -- the new run is started
  have hprepare : Calling R may
      (Program.update fun a => { a with connection := .pending, readiness := .awaited }) (taken w)
      (.done ()) _ := .await rfl
  refine ⟨fun hready => ?_, fun o ho => ?_⟩
  · have hreport : Calling R may awaitReady (launched w) (.done true) u :=
      Calling.after_steps hu (.await (by rw [hready]))
    have hlaunch : Calling R may launch (taken w) (.done (.ok w.tasks.length)) u :=
      hprepare.bind ((Calling.start run).bind (hreport.race_left.append (.stop .refl)))
    have hput : Calling R may (putRun (some w.tasks.length)) u (.done ())
        (put (some w.tasks.length) u) := .await rfl
    exact htake.bind (halive.bind (hlaunch.bind (hput.bind (.stop .refl))))
  · have hexit : Calling R may (perform (.join w.tasks.length)) (launched w) (.done o) u :=
      Calling.after_steps hu (.join ho)
    have hlaunch : Calling R may launch (taken w) (.done (.error (exitError o))) u :=
      hprepare.bind ((Calling.start run).bind (hexit.race_left.race_right.append (.stop .refl)))
    have hput : Calling R may (putRun s) u (.done ()) (put s u) := .await rfl
    exact htake.bind (halive.bind (hlaunch.bind (hput.bind (.stop .refl))))

theorem calling_stop {t : TaskId} {o : RunOutcome} (hslot : w.account.run = .free (some t))
    (ho : w.outcome? t = some o) :
    ∃ w', Calling R may stop w (.done o.result) w' := by
  have htake : Calling R may takeRun w (.done (some t)) (taken w) := .await (by rw [hslot])
  have hput : Calling R may (putRun none) (taken w) (.done ()) (put none (taken w)) := .await rfl
  have hended : (Ensemble.cancel (put none (taken w)) t).outcome? t = some o :=
    (outcome?_cancel _ t t).trans ho
  exact ⟨_, htake.bind (hput.bind
    ((Calling.cancel t).bind ((Calling.join hended).bind (.stop .refl))))⟩

/-! ## Two histories -/

theorem Reached.steps (h : Reached R may w) (hw : Reaches R may w w') : Reached R may w' := by
  induction hw with
  | refl => exact h
  | tail _ hs ih => exact ih.step hs

theorem aside_nobody : Others.nobody.Aside where
  started _ _ h := congrArg Account.started h
  run _ _ h := congrArg Account.run h

/-- What a run does once it is ready. -/
def ready : Program RunOutcome :=
  (either (iterate () linkTurn) (watching (.ok ()))).bind conclude

/-- A session is started, and its run is ready. -/
theorem exists_ready (may : Account → RunOutcome → Prop) :
    ∃ a flow, Reached .nobody may ⟨a, [.alive false ready]⟩ ∧ a.run = .free (some 0) ∧
      a.started = true ∧ a.store = .profile none ∧ a.login = .free flow := by
  let a : Account := { newAccount with run := .taken, connection := .pending, readiness := .awaited }
  let flow : LoginFlow := ({} : LoginFlow).restoreTokens (restorable oneEach)
  let b : Account := readied a flow (Table.ofList [(5, 50)])
  let profile : Profile := { metadata := oneEach }
  have htokens : restorable profile.metadata ≠ [] :=
    List.ne_nil_of_length_eq_add_one length_restorable_oneEach
  have hready : BecomesReady .nobody .nobody a (unanswered a.profile profile) (iterate () linkTurn) b :=
    becomesReady_unanswered _ _ rfl rfl htokens storedHashes_oneEach
  have hrun : Run .nobody run a (unanswered a.profile profile) ready b := by
    rw [run_eq, body_eq_restored]
    exact (hready.run.either_bind_right watching).bind_left conclude
  have hsteps : Reaches .nobody may (launched ⟨newAccount, []⟩) ⟨b, [.alive false ready]⟩ :=
    reaches_of_run [.alive false run] 0 hrun rfl (by simp [unanswered])
  have hnone (t : TaskId) (ht : none = some t) : (Ensemble.outcome? ⟨newAccount, []⟩ t).isSome := by
    cases ht
  have hstart := (calling_start (w := ⟨newAccount, []⟩) rfl hnone hsteps).1 rfl
  exact ⟨_, flow, .start (.fresh rfl rfl) hstart, rfl, rfl, rfl, rfl⟩

/-- The run crashes when it is ready. -/
theorem exists_crashed (may : Account → RunOutcome → Prop) (hmay : ∀ a, may a .crashed) :
    ∃ a, Reached .nobody may ⟨a, [.ended .crashed]⟩ ∧ a.started = true := by
  obtain ⟨a, flow, h, -, hstarted, -, -⟩ := exists_ready may
  let b : Account := { a with readiness := withdraw a.readiness }
  have hlink : Run .nobody (iterate () linkTurn) a [.answered .linkEvent .crashed] (.done .crashed) a :=
    Run.iterate_done (Run.bind (.of_external .linkEvent .crashed a) (.refl _ a))
  have hconclude : Run .nobody (conclude (.inl .crashed)) a [] (.done .crashed) b :=
    Run.bind (.of_await rfl) (.refl _ b)
  have hrun : Run .nobody ready a _ (.done .crashed) b := (Run.race_left_done hlink).bind hconclude
  have hsteps : Reaches .nobody may ⟨a, [.alive false ready]⟩ ⟨b, [.ended .crashed]⟩ :=
    reaches_end_of_run [.alive false ready] 0 hrun rfl (by simp) (hmay b)
  exact ⟨b, h.steps hsteps, hstarted⟩

/-- The first run has ended with a timeout, and the second, which was started later, without an error. -/
def failedRestart (a : Account) : Ensemble :=
  ⟨a, [.ended (.finished (.error (.call .timeout))), .ended (.finished (.ok ()))]⟩

/-- The run ends when it is ready, because the connection times out, and the session cannot be started
again, because the connection ends at once. -/
theorem exists_failedRestart (may : Account → RunOutcome → Prop)
    (hmay : ∀ a result, may a (.finished result)) :
    ∃ a, Reached .nobody may (failedRestart a) ∧ a.run = .free (some 0) := by
  obtain ⟨a, flow, h, hslot, -, hstore, hlogin⟩ := exists_ready may
  let o₁ : RunOutcome := .finished (.error (.call .timeout))
  let o₂ : RunOutcome := .finished (.ok ())
  -- the first run
  let b : Account := { a with started := false, readiness := withdraw a.readiness }
  have hrun₁ : Run .nobody ready a _ (.done o₁) b :=
    (Run.race_left_done (run_linkTurns_ended (.error .timeout) a)).bind (run_wrapUp _ hstore hlogin)
  have hsteps₁ : Reaches .nobody may ⟨a, [.alive false ready]⟩ ⟨b, [.ended o₁]⟩ :=
    reaches_end_of_run [.alive false ready] 0 hrun₁ rfl (by simp) (hmay b _)
  -- the second run
  let c : Account := { b with run := .taken, connection := .pending, readiness := .awaited }
  let d : Account := { c with started := false, readiness := .lost }
  have hrun₂ : Run .nobody ((either link body).bind conclude) c _ (.done o₂) d :=
    (Run.race_left_done (run_link_ended (.ok ()) c)).bind (run_wrapUp _ hstore hlogin)
  rw [← run_eq] at hrun₂
  have hsteps₂ : Reaches .nobody may (launched ⟨b, [.ended o₁]⟩) ⟨d, [.ended o₁, .ended o₂]⟩ :=
    reaches_end_of_run [.ended o₁, .alive false run] 1 hrun₂ rfl (by simp) (hmay d _)
  have hended (t : TaskId) (ht : some 0 = some t) :
      (Ensemble.outcome? ⟨b, [.ended o₁]⟩ t).isSome := by
    cases ht
    rfl
  have hstart := (calling_start (w := ⟨b, [.ended o₁]⟩) hslot hended hsteps₂).2 o₂ rfl
  exact ⟨_, (h.steps hsteps₁).start hstart, rfl⟩

/-! ## Whatever calls there have been -/

/-- Whatever calls there have been, and however the runs behave. -/
theorem reached_lifecycle (hR : R.Aside) (h : Reached R may w) : ∃ s, Lifecycle R may s w := by
  obtain ⟨s, hs⟩ := h.atRest hR
  exact ⟨s, hs.lifecycle hR⟩

/-- A run that has crashed leaves the session started, and a start that fails leaves the run before it in
the slot, so that a stop gives a result that is neither of a run that it ended nor of the last one. -/
theorem dead_run_lingers :
    (¬ ∀ (R : Others) (may : Account → RunOutcome → Prop) (w : Ensemble), R.Aside → Reached R may w →
      w.account.started = true → ∃ t, w.Lives t) ∧
    ¬ ∀ (R : Others) (may : Account → RunOutcome → Prop) (w w' : Ensemble) (r : Except SessionError Unit),
      R.Aside → Reached R may w → Calling R may stop w (.done r) w' →
        r = .ok () ∨ (∃ t o, w.Lives t ∧ w'.outcome? t = some o ∧ r = o.result) ∨
          ∃ o, w.outcome? (w.tasks.length - 1) = some o ∧ r = o.result := by
  constructor
  · intro h
    obtain ⟨a, hreached, hstarted⟩ := exists_crashed (fun _ _ => True) fun _ => trivial
    obtain ⟨t, ht⟩ := h _ _ _ aside_nobody hreached hstarted
    exact not_lives (by simp [Task.outcome?]) ht
  · intro h
    obtain ⟨a, hreached, hslot⟩ := exists_failedRestart (fun _ _ => True) fun _ _ => trivial
    have hended : (failedRestart a).outcome? 0 = some (.finished (.error (.call .timeout))) := rfl
    obtain ⟨w', hstop⟩ : ∃ w', Calling .nobody (fun _ _ => True) stop (failedRestart a)
        (.done (.error (.call .timeout))) w' := calling_stop hslot hended
    obtain hok | ⟨t, _, ht, -⟩ | ⟨o, ho, heq⟩ := h _ _ _ _ _ aside_nobody hreached hstop
    · cases hok
    · exact not_lives (by simp [failedRestart, Task.outcome?]) ht
    · cases ho
      cases heq

/-- A session whose restart has failed, with no crash of a run that was ready: the run before the restart
is in its slot. -/
theorem reached_lifecycle_failedRestart :
    ∃ (may : Account → RunOutcome → Prop) (w : Ensemble), CrashesEarly may ∧ Others.nobody.Aside ∧
      Reached .nobody may w ∧ w.tasks.length = 2 ∧ Lifecycle .nobody may (some 0) w := by
  let may : Account → RunOutcome → Prop := fun a o => o = .crashed → a.started = false
  obtain ⟨a, hreached, hslot⟩ := exists_failedRestart may fun _ _ => nofun
  obtain ⟨s, hs⟩ := reached_lifecycle aside_nobody hreached
  obtain rfl : some 0 = s := Guarded.free.inj (hslot.symm.trans hs.slot)
  exact ⟨may, _, fun _ h => h rfl, aside_nobody, hreached, rfl, hs⟩

end Session

end Telebridge
