import Telebridge.Proofs.Program.Ensemble
set_option autoImplicit false

/-! # Calls

`Program.Move` is what a program in the foreground does in an ensemble: like any step of a program it may
change the account, and besides it may start tasks, cancel them, ask for their outcome, and wait for it.
`Program.Calling` is any number of its moves, finished or not, among steps of the ensemble.

`Program.Answers` says what comes of a call, whatever happens meanwhile. At any moment it is done, or can go
on, or has to wait for a reason that is known; all its moves keep to a guarantee; and its answer is as
promised. There is one rule for each way to compose programs; the one for races (`Answers.race`) is about
sides that only wait. -/

namespace Telebridge

open Ensemble (Reaches)

/-! ## Moves -/

/-- What an action can lead to in an ensemble, under a token that is cancelled or not. -/
def Action.Does (R : Others) (c : Bool) : {β : Type} → Action β → Ensemble → β → Ensemble → Prop
  | _, .external _, w, _, w' => w' = w
  | _, .account f, w, b, w' => ∃ a, f w.account = some (b, a) ∧ w' = { w with account := a }
  | _, .pause _, w, how, w' => (how = .cancelled → c = true) ∧ w' = w
  | _, .cancelled, w, _, w' => c = true ∧ w' = w
  | _, .cancel t, w, _, w' => w' = w.cancel t
  | _, .outcome? t, w, o, w' => o = w.outcome? t ∧ w' = w
  | _, .join t, w, o, w' => w.outcome? t = some o ∧ w' = w
  | _, .dispatch _, w, _, w' => ∃ a, R.may w.account a ∧ w' = { w with account := a }

theorem Action.Does.leads {R : Others} {c : Bool} {β : Type} {x : Action β} {w w' : Ensemble} {b : β}
    (h : x.Does R c w b w') :
    ∃ es, x.Leads R w.account es b w'.account ∧ (c = false → .cancelled ∉ es) := by
  cases x with
  | external e =>
    cases h
    exact ⟨_, ⟨rfl, rfl⟩, by simp⟩
  | account f =>
    obtain ⟨a, hf, rfl⟩ := h
    exact ⟨_, ⟨rfl, hf⟩, by simp⟩
  | pause ms =>
    obtain ⟨-, rfl⟩ := h
    exact ⟨_, ⟨rfl, rfl⟩, by simp⟩
  | cancelled =>
    obtain ⟨rfl, rfl⟩ := h
    exact ⟨_, ⟨rfl, rfl⟩, nofun⟩
  | cancel t =>
    cases h
    exact ⟨_, ⟨rfl, rfl⟩, by simp⟩
  | outcome? t | join t =>
    obtain ⟨-, rfl⟩ := h
    exact ⟨_, ⟨rfl, rfl⟩, by simp⟩
  | dispatch updates =>
    obtain ⟨a, ha, rfl⟩ := h
    exact ⟨_, ⟨rfl, ha⟩, by simp⟩

namespace Program

variable {R : Others} {may : Account → RunOutcome → Prop} {c : Bool} {α β γ : Type}

/-- A single move of a program in an ensemble, under a token that is cancelled or not. -/
def Move (R : Others) : Bool → {α : Type} → Program α → Ensemble → Program α → Ensemble → Prop
  | _, _, .done _, _, _, _ => False
  | c, _, .act x k, w, q, w' => ∃ b, x.Does R c w b w' ∧ q = k b
  | _, _, .loop s body k, w, q, w' => w' = w ∧ q = unroll s body k
  | c, _, .race p p' k, w, q, w' =>
    (∃ r, Move R c p w r w' ∧ q = .race r p' k) ∨
    (∃ r, Move R c p' w r w' ∧ q = .race p r k) ∨
    (∃ b, p = .done b ∧ w' = w ∧ q = k (.inl b)) ∨
    (∃ b, p' = .done b ∧ w' = w ∧ q = k (.inr b))
  | _, _, .shielded p k, w, q, w' =>
    (∃ r, Move R false p w r w' ∧ q = .shielded r k) ∨
    (∃ b, p = .done b ∧ w' = w ∧ q = k b)
  | _, _, .spawn p k, w, q, w' => w' = w.spawn p ∧ q = k w.tasks.length

variable {p q : Program α} {w w' : Ensemble}

/-- What a program does in an ensemble is a step of the program. -/
theorem Move.step (h : Move R c p w q w') :
    ∃ es, Step R p w.account es q w'.account ∧ (c = false → .cancelled ∉ es) := by
  induction p generalizing c w w' with
  | done r => exact h.elim
  | act x k _ =>
    obtain ⟨b, hx, rfl⟩ := h
    obtain ⟨es, hleads, hes⟩ := hx.leads
    exact ⟨es, ⟨b, hleads, rfl⟩, hes⟩
  | loop s body k _ _ =>
    obtain ⟨rfl, rfl⟩ := h
    exact ⟨[], ⟨rfl, rfl, rfl⟩, by simp⟩
  | race p p' k ihp ihp' _ =>
    obtain ⟨r, hr, rfl⟩ | ⟨r, hr, rfl⟩ | ⟨b, rfl, rfl, rfl⟩ | ⟨b, rfl, rfl, rfl⟩ := h
    · obtain ⟨es, hs, hes⟩ := ihp hr
      exact ⟨es, .inl ⟨r, hs, rfl⟩, hes⟩
    · obtain ⟨es, hs, hes⟩ := ihp' hr
      exact ⟨es, .inr (.inl ⟨r, hs, rfl⟩), hes⟩
    · exact ⟨[], .inr (.inr (.inl ⟨b, rfl, rfl, rfl, rfl⟩)), by simp⟩
    · exact ⟨[], .inr (.inr (.inr ⟨b, rfl, rfl, rfl, rfl⟩)), by simp⟩
  | shielded p k ihp _ =>
    obtain ⟨r, hr, rfl⟩ | ⟨b, rfl, rfl, rfl⟩ := h
    · obtain ⟨es, hs, hes⟩ := ihp hr
      exact ⟨es, .inl ⟨r, hs, hes rfl, rfl⟩, fun _ => hes rfl⟩
    · exact ⟨[], .inr ⟨b, rfl, rfl, rfl, rfl⟩, by simp⟩
  | spawn p k _ _ =>
    obtain ⟨rfl, rfl⟩ := h
    exact ⟨[], ⟨rfl, rfl, _, rfl⟩, by simp⟩

/-- Whatever follows a program does not keep it from its moves. -/
theorem Move.bind (f : α → Program β) (h : Move R c p w q w') :
    Move R c (p.bind f) w (q.bind f) w' := by
  cases p with
  | done r => exact h.elim
  | act x k =>
    obtain ⟨b, hx, rfl⟩ := h
    exact ⟨b, hx, rfl⟩
  | loop s body k =>
    obtain ⟨rfl, rfl⟩ := h
    exact ⟨rfl, unroll_bind s body k f⟩
  | race p p' k =>
    obtain ⟨r, hr, rfl⟩ | ⟨r, hr, rfl⟩ | ⟨b, rfl, rfl, rfl⟩ | ⟨b, rfl, rfl, rfl⟩ := h
    · exact .inl ⟨r, hr, rfl⟩
    · exact .inr (.inl ⟨r, hr, rfl⟩)
    · exact .inr (.inr (.inl ⟨b, rfl, rfl, rfl⟩))
    · exact .inr (.inr (.inr ⟨b, rfl, rfl, rfl⟩))
  | shielded p k =>
    obtain ⟨r, hr, rfl⟩ | ⟨b, rfl, rfl, rfl⟩ := h
    · exact .inl ⟨r, hr, rfl⟩
    · exact .inr ⟨b, rfl, rfl, rfl⟩
  | spawn p k =>
    obtain ⟨rfl, rfl⟩ := h
    exact ⟨rfl, rfl⟩

/-- A program that is not done moves before what follows it. -/
theorem Move.of_bind {f : α → Program β} {q : Program β} (hp : ∀ r, p ≠ .done r)
    (h : Move R c (p.bind f) w q w') : ∃ p', Move R c p w p' w' ∧ q = p'.bind f := by
  cases p with
  | done r => exact absurd rfl (hp r)
  | act x k =>
    obtain ⟨b, hx, rfl⟩ := h
    exact ⟨k b, ⟨b, hx, rfl⟩, rfl⟩
  | loop s body k =>
    obtain ⟨rfl, rfl⟩ := h
    exact ⟨_, ⟨rfl, rfl⟩, (unroll_bind s body k f).symm⟩
  | race p p' k =>
    obtain ⟨r, hr, rfl⟩ | ⟨r, hr, rfl⟩ | ⟨b, rfl, rfl, rfl⟩ | ⟨b, rfl, rfl, rfl⟩ := h
    · exact ⟨.race r p' k, .inl ⟨r, hr, rfl⟩, rfl⟩
    · exact ⟨.race p r k, .inr (.inl ⟨r, hr, rfl⟩), rfl⟩
    · exact ⟨k (.inl b), .inr (.inr (.inl ⟨b, rfl, rfl, rfl⟩)), rfl⟩
    · exact ⟨k (.inr b), .inr (.inr (.inr ⟨b, rfl, rfl, rfl⟩)), rfl⟩
  | shielded p k =>
    obtain ⟨r, hr, rfl⟩ | ⟨b, rfl, rfl, rfl⟩ := h
    · exact ⟨.shielded r k, .inl ⟨r, hr, rfl⟩, rfl⟩
    · exact ⟨k b, .inr ⟨b, rfl, rfl, rfl⟩, rfl⟩
  | spawn p k =>
    obtain ⟨rfl, rfl⟩ := h
    exact ⟨k _, ⟨rfl, rfl⟩, rfl⟩

/-! ## Calls -/

/-- Any number of moves of a program, under a token that may be cancelled at any moment, with steps of
the ensemble before, between and after them. -/
inductive Calling (R : Others) (may : Account → RunOutcome → Prop) {α : Type} :
    Program α → Ensemble → Program α → Ensemble → Prop
  | stop {p : Program α} {w w' : Ensemble} (h : Reaches R may w w') : Calling R may p w p w'
  | move {p p' q : Program α} {w u v w' : Ensemble} {c : Bool} (h : Reaches R may w u)
      (hm : Move R c p u p' v) (hr : Calling R may p' v q w') : Calling R may p w q w'

namespace Calling

/-- What happens before a call belongs to it. -/
theorem after_steps {u : Ensemble} (h : Reaches R may w u) (hc : Calling R may p u q w') :
    Calling R may p w q w' := by
  cases hc with
  | stop h' => exact .stop (h.trans h')
  | move h' hm hr => exact .move (h.trans h') hm hr

/-- One part of a call after another. -/
theorem append {r : Program α} {u : Ensemble} (h : Calling R may p w q u) (h' : Calling R may q u r w') :
    Calling R may p w r w' := by
  induction h with
  | stop h => exact h'.after_steps h
  | move h hm _ ih => exact .move h hm (ih h')

/-- A single move. -/
theorem single (h : Move R c p w q w') : Calling R may p w q w' :=
  .move .refl h (.stop .refl)

/-! ### Calls that are possible -/

/-- A program is called, then what follows it. -/
theorem bind {r : α} {f : α → Program β} {q : Program β} {u : Ensemble}
    (h : Calling R may p w (.done r) u) (h' : Calling R may (f r) u q w') :
    Calling R may (p >>= f) w q w' := by
  have hleft {p p' : Program α} {w u : Ensemble} (h : Calling R may p w p' u) :
      Calling R may (p.bind f) w (p'.bind f) u := by
    induction h with
    | stop h => exact .stop h
    | move h hm _ ih => exact .move h (hm.bind f) ih
  exact (hleft h).append h'

theorem await {f : Account → Option (β × Account)} {b : β} {a : Account}
    (h : f w.account = some (b, a)) :
    Calling R may (Program.await f) w (.done b) { w with account := a } :=
  .single (c := false) ⟨b, ⟨a, h, rfl⟩, rfl⟩

theorem outcome? (t : TaskId) :
    Calling R may (perform (.outcome? t)) w (.done (w.outcome? t)) w :=
  .single (c := false) ⟨_, ⟨rfl, rfl⟩, rfl⟩

theorem cancel (t : TaskId) : Calling R may (perform (.cancel t)) w (.done ()) (w.cancel t) :=
  .single (c := false) ⟨(), rfl, rfl⟩

theorem join {t : TaskId} {o : RunOutcome} (h : w.outcome? t = some o) :
    Calling R may (perform (.join t)) w (.done o) w :=
  .single (c := false) ⟨o, ⟨h, rfl⟩, rfl⟩

theorem start (p : Program RunOutcome) :
    Calling R may (Program.start p) w (.done w.tasks.length) (w.spawn p) :=
  .single (c := false) ⟨rfl, rfl⟩

theorem race_left {r : α} {p' : Program β} {k : α ⊕ β → Program γ}
    (h : Calling R may p w (.done r) w') : Calling R may (.race p p' k) w (k (.inl r)) w' := by
  generalize hq : Program.done r = q at h
  induction h with
  | stop h =>
    subst hq
    exact .move (c := false) h (.inr (.inr (.inl ⟨r, rfl, rfl, rfl⟩))) (.stop .refl)
  | move h hm _ ih => exact .move h (.inl ⟨_, hm, rfl⟩) (ih hq)

theorem race_right {r : α} {p' : Program β} {k : β ⊕ α → Program γ}
    (h : Calling R may p w (.done r) w') : Calling R may (.race p' p k) w (k (.inr r)) w' := by
  generalize hq : Program.done r = q at h
  induction h with
  | stop h =>
    subst hq
    exact .move (c := false) h (.inr (.inr (.inr ⟨r, rfl, rfl, rfl⟩))) (.stop .refl)
  | move h hm _ ih => exact .move h (.inr (.inl ⟨_, hm, rfl⟩)) (ih hq)

end Calling

/-! ## What comes of a call -/

/-- What comes of a call; see the beginning of the module. Its moves keep to `G`, it waits only while `B`,
and `Q` holds of its answer from then on. -/
inductive Answers (R : Others) (may : Account → RunOutcome → Prop) (G : Ensemble → Ensemble → Prop)
    (B : Ensemble → Prop) {α : Type} (Q : α → Ensemble → Prop) : Program α → Ensemble → Prop
  | done {r : α} {w : Ensemble} (h : ∀ w', Reaches R may w w' → Q r w') : Answers R may G B Q (.done r) w
  | move {p : Program α} {w : Ensemble} (hp : ∀ r, p ≠ .done r)
      (can : ∀ u, Reaches R may w u → B u ∨ ∃ q v, Move R false p u q v)
      (keeps : ∀ u c q v, Reaches R may w u → Move R c p u q v → G u v)
      (must : ∀ u c q v, Reaches R may w u → Move R c p u q v → Answers R may G B Q q v) :
      Answers R may G B Q p w

namespace Answers

variable {G : Ensemble → Ensemble → Prop} {B : Ensemble → Prop} {Q Q' : α → Ensemble → Prop}

theorem after_steps (h : Answers R may G B Q p w) (hw : Reaches R may w w') :
    Answers R may G B Q p w' := by
  cases h with
  | done h => exact .done fun u hu => h u (hw.trans hu)
  | move hp can keeps must =>
    exact .move hp (fun u hu => can u (hw.trans hu)) (fun u c q v hu => keeps u c q v (hw.trans hu))
      fun u c q v hu => must u c q v (hw.trans hu)

/-- Wherever a call stands, the same can be said of the rest of it. -/
theorem calling (h : Answers R may G B Q p w) (hc : Calling R may p w q w') :
    Answers R may G B Q q w' := by
  induction hc with
  | stop hw => exact h.after_steps hw
  | move hu hm _ ih =>
    cases h with
    | done _ => exact hm.elim
    | move _ _ _ must => exact ih (must _ _ _ _ hu hm)

/-- A move keeps to the guarantee. -/
theorem keeps_of_move {u v : Ensemble} (h : Answers R may G B Q p w) (hu : Reaches R may w u)
    (hm : Move R c p u q v) : G u v := by
  cases h with
  | done _ => exact hm.elim
  | move _ _ keeps _ => exact keeps u c q v hu hm

/-- The answer is as promised. -/
theorem result {r : α} (h : Answers R may G B Q p w) (hc : Calling R may p w (.done r) w') : Q r w' := by
  cases h.calling hc with
  | done h => exact h w' .refl
  | move hp => exact absurd rfl (hp r)

/-- A call is done, or has to wait, or can go on. -/
theorem now (h : Answers R may G B Q p w) :
    (∃ r, p = .done r ∧ ∀ w', Reaches R may w w' → Q r w') ∨ B w ∨ ∃ q v, Move R false p w q v := by
  cases h with
  | done h => exact .inl ⟨_, rfl, h⟩
  | move _ can _ _ => exact .inr (can w .refl)

/-- What the steps of the ensemble keep, and moves that keep to the guarantee, holds throughout. -/
theorem invariant {I : Ensemble → Prop} (hstep : ∀ w w', Ensemble.Step R may w w' → I w → I w')
    (hG : ∀ w w', G w w' → I w → I w') (h : Answers R may G B Q p w) (hc : Calling R may p w q w')
    (hw : I w) : I w' := by
  have hreaches {w w' : Ensemble} (hr : Reaches R may w w') (hw : I w) : I w' := by
    induction hr with
    | refl => exact hw
    | tail _ hs ih => exact hstep _ _ hs ih
  induction hc with
  | stop hr => exact hreaches hr hw
  | move hu hm _ ih =>
    cases h with
    | done _ => exact hm.elim
    | move _ _ keeps must =>
      exact ih (must _ _ _ _ hu hm) (hG _ _ (keeps _ _ _ _ hu hm) (hreaches hu hw))

/-! ### Rules -/

/-- A call that is not done. -/
theorem going (hp : ∀ r, p ≠ .done r) (can : ∀ u, Reaches R may w u → B u ∨ ∃ q v, Move R false p u q v)
    (must : ∀ u c q v, Reaches R may w u → Move R c p u q v → G u v ∧ Answers R may G B Q q v) :
    Answers R may G B Q p w :=
  .move hp can (fun u c q v hu hm => (must u c q v hu hm).1) fun u c q v hu hm => (must u c q v hu hm).2

theorem act {x : Action β} {k : β → Program α}
    (can : ∀ u, Reaches R may w u → B u ∨ ∃ b v, x.Does R false u b v)
    (must : ∀ u c b v, Reaches R may w u → x.Does R c u b v → G u v ∧ Answers R may G B Q (k b) v) :
    Answers R may G B Q (.act x k) w := by
  refine going nofun (fun u hu => (can u hu).imp_right ?_) ?_
  · rintro ⟨b, v, hx⟩
    exact ⟨k b, v, b, hx, rfl⟩
  · rintro u c _ v hu ⟨b, hx, rfl⟩
    exact must u c b v hu hx

/-- Reads and changes the account, at a moment at which it can. -/
theorem await {f : Account → Option (β × Account)} {k : β → Program α}
    (can : ∀ u, Reaches R may w u → B u ∨ ∃ b a, f u.account = some (b, a))
    (must : ∀ u b a, Reaches R may w u → f u.account = some (b, a) →
      G u { u with account := a } ∧ Answers R may G B Q (k b) { u with account := a }) :
    Answers R may G B Q (Program.await f >>= k) w := by
  refine act (fun u hu => (can u hu).imp_right ?_) ?_
  · rintro ⟨b, a, hf⟩
    exact ⟨b, _, a, hf, rfl⟩
  · rintro u _ b _ hu ⟨a, hf, rfl⟩
    exact must u b a hu hf

theorem update {f : Account → Account} {k : Unit → Program α}
    (must : ∀ u, Reaches R may w u →
      G u { u with account := f u.account } ∧
        Answers R may G B Q (k ()) { u with account := f u.account }) :
    Answers R may G B Q (Program.update f >>= k) w := by
  refine await (fun u _ => .inr ⟨(), _, rfl⟩) fun u b a hu hf => ?_
  cases hf
  exact must u hu

theorem outcome? {t : TaskId} {k : Option RunOutcome → Program α}
    (must : ∀ u, Reaches R may w u → G u u ∧ Answers R may G B Q (k (u.outcome? t)) u) :
    Answers R may G B Q (perform (.outcome? t) >>= k) w := by
  refine act (fun u _ => .inr ⟨_, u, rfl, rfl⟩) ?_
  rintro _ _ _ _ hu ⟨rfl, rfl⟩
  exact must _ hu

theorem cancel {t : TaskId} {k : Unit → Program α}
    (must : ∀ u, Reaches R may w u → G u (u.cancel t) ∧ Answers R may G B Q (k ()) (u.cancel t)) :
    Answers R may G B Q (perform (.cancel t) >>= k) w := by
  refine act (fun u _ => .inr ⟨(), _, rfl⟩) ?_
  rintro u _ _ _ hu rfl
  exact must u hu

/-- Waits for the end of a task. -/
theorem join {t : TaskId} {k : RunOutcome → Program α}
    (can : ∀ u, Reaches R may w u → B u ∨ ∃ o, u.outcome? t = some o)
    (must : ∀ u o, Reaches R may w u → u.outcome? t = some o →
      G u u ∧ Answers R may G B Q (k o) u) :
    Answers R may G B Q (perform (.join t) >>= k) w := by
  refine act (fun u hu => (can u hu).imp_right ?_) ?_
  · rintro ⟨o, ho⟩
    exact ⟨o, u, ho, rfl⟩
  · rintro _ _ o _ hu ⟨ho, rfl⟩
    exact must _ o hu ho

theorem start {p : Program RunOutcome} {k : TaskId → Program α}
    (must : ∀ u, Reaches R may w u →
      G u (u.spawn p) ∧ Answers R may G B Q (k u.tasks.length) (u.spawn p)) :
    Answers R may G B Q (Program.start p >>= k) w := by
  refine going nofun (fun u _ => .inr ⟨_, _, rfl, rfl⟩) ?_
  rintro u _ _ _ hu ⟨rfl, rfl⟩
  exact must u hu

theorem bind {Q : β → Ensemble → Prop} {f : α → Program β} (h : Answers R may G B Q' p w)
    (hf : ∀ r w, (∀ w', Reaches R may w w' → Q' r w') → Answers R may G B Q (f r) w) :
    Answers R may G B Q (p >>= f) w := by
  induction h with
  | done h => exact hf _ _ h
  | @move p w hp can keeps _ ih =>
    refine going (fun r hr => ?_) (fun u hu => (can u hu).imp_right ?_) ?_
    · cases p with
      | done r' => exact hp r' rfl
      | _ => cases hr
    · rintro ⟨q, v, hm⟩
      exact ⟨_, v, hm.bind f⟩
    · intro u c q v hu hm
      obtain ⟨p', hm', rfl⟩ := Move.of_bind hp hm
      exact ⟨keeps u c p' v hu hm', ih u c p' v hu hm'⟩

section

variable {Q : γ → Ensemble → Prop} {P : α → Ensemble → Prop} {P' : β → Ensemble → Prop}
  {B₁ B₂ : Ensemble → Prop} {p : Program α} {p' : Program β} {k : α ⊕ β → Program γ}

/-- A race of two sides that only wait, if it is known what comes of it after a move of either side. -/
theorem race_going (hG : ∀ w, G w w) (hB : ∀ w, B₁ w → B₂ w → B w)
    (hp : Answers R may Eq B₁ P p w) (hp' : Answers R may Eq B₂ P' p' w)
    (hleft : ∀ b u, Reaches R may w u → (∀ v, Reaches R may u v → P b v) →
      Answers R may G B Q (k (.inl b)) u)
    (hright : ∀ b u, Reaches R may w u → (∀ v, Reaches R may u v → P' b v) →
      Answers R may G B Q (k (.inr b)) u)
    (left : ∀ u c q, Reaches R may w u → Move R c p u q u → Answers R may G B Q (.race q p' k) u)
    (right : ∀ u c q, Reaches R may w u → Move R c p' u q u → Answers R may G B Q (.race p q k) u) :
    Answers R may G B Q (.race p p' k) w := by
  refine going nofun (fun u hu => ?_) fun u c q v hu hm => ?_
  · obtain ⟨b, rfl, -⟩ | hwait | ⟨q, v, hm⟩ := (hp.after_steps hu).now
    · exact .inr ⟨_, u, .inr (.inr (.inl ⟨b, rfl, rfl, rfl⟩))⟩
    · obtain ⟨b, rfl, -⟩ | hwait' | ⟨q, v, hm⟩ := (hp'.after_steps hu).now
      · exact .inr ⟨_, u, .inr (.inr (.inr ⟨b, rfl, rfl, rfl⟩))⟩
      · exact .inl (hB u hwait hwait')
      · exact .inr ⟨_, v, .inr (.inl ⟨q, hm, rfl⟩)⟩
    · exact .inr ⟨_, v, .inl ⟨q, hm, rfl⟩⟩
  · obtain ⟨r, hm, rfl⟩ | ⟨r, hm, rfl⟩ | ⟨b, rfl, rfl, rfl⟩ | ⟨b, rfl, rfl, rfl⟩ := hm
    · obtain rfl : u = v := hp.keeps_of_move hu hm
      exact ⟨hG u, left u c r hu hm⟩
    · obtain rfl : u = v := hp'.keeps_of_move hu hm
      exact ⟨hG u, right u c r hu hm⟩
    · exact ⟨hG v, hleft b v hu fun v' hv' => hp.result (.stop (hu.trans hv'))⟩
    · exact ⟨hG v, hright b v hu fun v' hv' => hp'.result (.stop (hu.trans hv'))⟩

/-- A race of two sides that only wait, if it is known what comes of it after a move of the left side. -/
theorem race_right (hG : ∀ w, G w w) (hB : ∀ w, B₁ w → B₂ w → B w)
    (hp : Answers R may Eq B₁ P p w) (hp' : Answers R may Eq B₂ P' p' w)
    (hleft : ∀ b u, Reaches R may w u → (∀ v, Reaches R may u v → P b v) →
      Answers R may G B Q (k (.inl b)) u)
    (hright : ∀ b u, Reaches R may w u → (∀ v, Reaches R may u v → P' b v) →
      Answers R may G B Q (k (.inr b)) u)
    (left : ∀ u c q p', Reaches R may w u → Move R c p u q u → Answers R may Eq B₂ P' p' u →
      Answers R may G B Q (.race q p' k) u) :
    Answers R may G B Q (.race p p' k) w := by
  induction hp' with
  | done h =>
    exact race_going hG hB hp (.done h) hleft hright
      (fun u c q hu hm => left u c q _ hu hm (Answers.done h |>.after_steps hu)) fun _ _ _ _ hm => hm.elim
  | @move p' w hp' can keeps must ih =>
    have hall : Answers R may Eq B₂ P' p' w := .move hp' can keeps must
    refine race_going hG hB hp hall hleft hright
      (fun u c q hu hm => left u c q p' hu hm (hall.after_steps hu)) fun u c q hu hm => ?_
    exact ih u c q u hu hm (hp.after_steps hu) (fun b v hv => hleft b v (hu.trans hv))
      (fun b v hv => hright b v (hu.trans hv)) fun v c q p' hv => left v c q p' (hu.trans hv)

/-- A race of two sides that only wait: it waits as long as both do, and goes on with an answer of either
side. -/
theorem race (hG : ∀ w, G w w) (hB : ∀ w, B₁ w → B₂ w → B w)
    (hp : Answers R may Eq B₁ P p w) (hp' : Answers R may Eq B₂ P' p' w)
    (hleft : ∀ b u, Reaches R may w u → (∀ v, Reaches R may u v → P b v) →
      Answers R may G B Q (k (.inl b)) u)
    (hright : ∀ b u, Reaches R may w u → (∀ v, Reaches R may u v → P' b v) →
      Answers R may G B Q (k (.inr b)) u) :
    Answers R may G B Q (.race p p' k) w := by
  induction hp generalizing p' with
  | done h => exact race_right hG hB (.done h) hp' hleft hright fun _ _ _ _ _ hm => hm.elim
  | @move p w hp can keeps must ih =>
    refine race_right hG hB (.move hp can keeps must) hp' hleft hright ?_
    exact fun u c q p' hu hm hp' => ih u c q u hu hm hp' (fun b v hv => hleft b v (hu.trans hv))
      fun b v hv => hright b v (hu.trans hv)

end

/-! ### Waiting -/

/-- The end of a task is awaited as long as it lives. -/
theorem joins {t : TaskId} (ht : t < w.tasks.length) :
    Answers R may Eq (fun u => u.Lives t) (fun o u => u.outcome? t = some o) (perform (.join t)) w := by
  refine act (fun u hu => ?_) ?_
  · obtain hlives | ⟨o, ho⟩ := Ensemble.lives_or_ended (Nat.lt_of_lt_of_le ht hu.later.length)
    · exact .inl hlives
    · exact .inr ⟨o, u, ho, rfl⟩
  · rintro u _ o _ hu ⟨ho, rfl⟩
    exact ⟨rfl, .done fun v hv => hv.later.ended t o ho⟩

theorem cancelled :
    Answers R may Eq (fun _ => True) (fun _ _ => True) Program.cancelled w := by
  refine act (fun _ _ => .inl trivial) ?_
  rintro u _ _ _ hu ⟨-, rfl⟩
  exact ⟨rfl, .done fun _ _ => trivial⟩

/-- What is only looked at is awaited for any time. -/
theorem awaits {f : Account → Option (β × Account)} (hf : ∀ a b a', f a = some (b, a') → a' = a) :
    Answers R may Eq (fun _ => True) (fun _ _ => True) (Program.await f) w := by
  refine act (fun _ _ => .inl trivial) ?_
  rintro u _ b _ hu ⟨a, ha, rfl⟩
  obtain rfl := hf _ _ _ ha
  exact ⟨rfl, .done fun _ _ => trivial⟩

end Answers

end Program

end Telebridge
