import Telebridge.Proofs.Program.Conduct
set_option autoImplicit false

/-! # Runs of loops and races

A run of a loop is a row of complete turns and a last one that may have got anywhere. `Program.Turns`
collects the states that the loop went through, the latest first, with the account after them. -/

namespace Telebridge.Program

variable {R : Others} {α β σ : Type}

/-- The states of a loop after some complete turns, the latest first, and the account then. -/
inductive Turns (R : Others) (body : σ → Program (σ ⊕ β)) (s₀ : σ) (a₀ : Account) :
    List σ → Account → Prop
  | start {a : Account} (h : R.may a₀ a) : Turns R body s₀ a₀ [s₀] a
  | turn {s s' : σ} {past : List σ} {a b : Account} {t : List Event}
      (h : Turns R body s₀ a₀ (s :: past) a) (hr : Run R (body s) a t (.done (.inl s')) b) :
      Turns R body s₀ a₀ (s' :: s :: past) b

variable {body : σ → Program (σ ⊕ β)} {s₀ : σ} {a₀ : Account}

/-- What the others do after a turn belongs to it. -/
theorem Turns.before_others {past : List σ} {a b : Account} (h : Turns R body s₀ a₀ past a)
    (hb : R.may a b) : Turns R body s₀ a₀ past b := by
  cases h with
  | start h => exact .start (R.trans h hb)
  | turn h hr => exact .turn h (hr.before_others hb)

/-- What the others do before the first turn belongs to it. -/
theorem Turns.after_others {states : List σ} {a a₁ : Account} (ha : R.may a₀ a₁)
    (h : Turns R body s₀ a₁ states a) : Turns R body s₀ a₀ states a := by
  induction h with
  | start h => exact .start (R.trans ha h)
  | turn _ hr ih => exact .turn ih hr

/-- A row of turns is a run of the loop. -/
theorem Turns.run {s : σ} {past : List σ} {a : Account} (h : Turns R body s₀ a₀ (s :: past) a) :
    ∃ t, Run R (iterate s₀ body) a₀ t (iterate s body) a := by
  generalize hs : s :: past = states at h
  induction h generalizing s past with
  | start h =>
    cases hs
    exact ⟨[], .stop h⟩
  | @turn s₁ s₂ past₁ a₁ b t h hr ih =>
    cases hs
    obtain ⟨u, hu⟩ := ih rfl
    have hturn : Run R (iterate s₁ body) a₁ ([] ++ t) (iterate s₂ body) b :=
      .step (R.refl _) ⟨rfl, rfl, rfl⟩ (hr.bind_left (afterTurn body .done))
    exact ⟨u ++ ([] ++ t), hu.append hturn⟩

/-- A loop went through every state of its past: what came before a state, and what came after it. -/
theorem Turns.split {s : σ} {later past : List σ} {a : Account}
    (h : Turns R body s₀ a₀ (later ++ s :: past) a) :
    ∃ a', Turns R body s₀ a₀ (s :: past) a' ∧ Turns R body s a' (later ++ [s]) a := by
  induction later generalizing a with
  | nil => exact ⟨a, h, .start (R.refl a)⟩
  | cons s' later ih =>
    obtain ⟨s'', rest, hrest⟩ : ∃ s'' rest, later ++ s :: past = s'' :: rest := by
      cases later with
      | nil => exact ⟨s, past, rfl⟩
      | cons s'' later => exact ⟨s'', later ++ s :: past, rfl⟩
    rw [List.cons_append, hrest] at h
    cases h with
    | turn h hr =>
      rw [← hrest] at h
      obtain ⟨a', hbefore, hafter⟩ := ih h
      refine ⟨a', hbefore, ?_⟩
      obtain ⟨rest', hrest'⟩ : ∃ rest', later ++ [s] = s'' :: rest' := by
        cases later with
        | nil =>
          cases hrest
          exact ⟨[], rfl⟩
        | cons t later =>
          cases hrest
          exact ⟨later ++ [s], rfl⟩
      rw [hrest'] at hafter
      rw [List.cons_append, hrest']
      exact .turn hafter hr

/-- What every turn does to the account, a row of turns does. -/
theorem Turns.conforms {G : Others} {shown : Event → Prop} {states : List σ} {a : Account}
    (hR : ∀ a b, R.may a b → G.may a b)
    (hbody : ∀ s, (body s).Conforms R G (fun _ => True) shown)
    (h : Turns R body s₀ a₀ states a) : G.may a₀ a := by
  induction h with
  | start h => exact hR _ _ h
  | turn _ hr ih => exact G.trans ih (hr.conforms hR (hbody _) fun _ _ => trivial).1

/-- Where a run of a loop can stand: between two turns, or within one, with whatever the others and every
complete turn keep. -/
theorem Run.iterate_invariant {I : σ → Account → Prop} {heard : Event → Prop} {q : Program β}
    {b : Account} {t : List Event} (hR : ∀ s a b, I s a → R.may a b → I s b)
    (hturn : ∀ s s' a b t, I s a → Run R (body s) a t (.done (.inl s')) b → (∀ e ∈ t, heard e) →
      I s' b)
    (h : Run R (iterate s₀ body) a₀ t q b) (h₀ : I s₀ a₀) (ht : ∀ e ∈ t, heard e) :
    (∃ s, I s b ∧ q = iterate s body) ∨
    ∃ s a u p, I s a ∧ Run R (body s) a u p b ∧ (∀ e ∈ u, heard e) ∧
      q = p.bind (afterTurn body .done) := by
  -- a run is followed from a point within a turn, whose beginning is known
  have key {p q : Program β} {a b : Account} {t : List Event} (hrun : Run R p a t q b) :
      ∀ s a' u r, I s a' → Run R (body s) a' u r a → (∀ e ∈ u ++ t, heard e) →
        p = r.bind (afterTurn body .done) →
        (∃ s, I s b ∧ q = iterate s body) ∨
        ∃ s a u p, I s a ∧ Run R (body s) a u p b ∧ (∀ e ∈ u, heard e) ∧
          q = p.bind (afterTurn body .done) := by
    induction hrun with
    | stop hb =>
      rintro s a' u r hs hr hu rfl
      exact .inr ⟨s, a', u, r, hs, hr.before_others hb, fun e he => hu e (by simpa using he), rfl⟩
    | step ha hs _ ih =>
      rintro s a' u r hi hr hu rfl
      obtain ⟨r', hs', rfl⟩ | ⟨o, rfl, hs'⟩ := hs.bind_cases
      · exact ih s a' _ r' hi ((hr.before_others ha).append (.single hs')) (by simpa using hu) rfl
      · cases o with
        | inr x => exact hs'.elim
        | inl s' =>
          obtain ⟨rfl, rfl, rfl⟩ := hs'
          have hi' := hturn s s' a' _ u hi (hr.before_others ha)
            fun e he => hu e (List.mem_append_left _ he)
          exact ih s' _ [] (body s') hi' (.refl _ _)
            (fun e he => hu e (List.mem_append_right u he)) (unroll_eq ..)
  cases h with
  | stop hb => exact .inl ⟨s₀, hR s₀ _ _ h₀ hb, rfl⟩
  | step ha hs hr =>
    obtain ⟨rfl, rfl, rfl⟩ := hs
    exact key hr s₀ _ [] (body s₀) (hR s₀ _ _ h₀ ha) (.refl _ _) ht (unroll_eq ..)

/-- Where a run of a loop can stand: between two turns, or within one. -/
theorem Run.iterate_cases {q : Program β} {b : Account} {t : List Event}
    (h : Run R (iterate s₀ body) a₀ t q b) :
    (∃ s past, Turns R body s₀ a₀ (s :: past) b ∧ q = iterate s body) ∨
    ∃ s past a u p, Turns R body s₀ a₀ (s :: past) a ∧ Run R (body s) a u p b ∧
      q = p.bind (afterTurn body .done) := by
  have hothers (s : σ) (a b : Account) :
      (∃ past, Turns R body s₀ a₀ (s :: past) a) → R.may a b →
        ∃ past, Turns R body s₀ a₀ (s :: past) b :=
    fun ⟨past, hturns⟩ hb => ⟨past, hturns.before_others hb⟩
  have hturn (s s' : σ) (a b : Account) (t : List Event) :
      (∃ past, Turns R body s₀ a₀ (s :: past) a) → Run R (body s) a t (.done (.inl s')) b →
        (∀ e ∈ t, True) → ∃ past, Turns R body s₀ a₀ (s' :: past) b :=
    fun ⟨past, hturns⟩ hr _ => ⟨s :: past, .turn hturns hr⟩
  obtain ⟨s, ⟨past, hturns⟩, hq⟩ | ⟨s, a, u, p, ⟨past, hturns⟩, hr, -, hq⟩ :=
    h.iterate_invariant hothers hturn ⟨[], .start (R.refl a₀)⟩ fun _ _ => trivial
  · exact .inl ⟨s, past, hturns, hq⟩
  · exact .inr ⟨s, past, a, u, p, hturns, hr, hq⟩

/-- A loop that has ended has a complete first turn. -/
theorem Run.iterate_first {x : β} {b : Account} {t : List Event}
    (h : Run R (iterate s₀ body) a₀ t (.done x) b) :
    ∃ o t₁ t₂ a₁, t = t₁ ++ t₂ ∧ Run R (body s₀) a₀ t₁ (.done o) a₁ ∧
      Run R (afterTurn body .done o) a₁ t₂ (.done x) b := by
  cases h with
  | step ha hs hr =>
    obtain ⟨rfl, rfl, rfl⟩ := hs
    rw [unroll_eq] at hr
    exact (hr.after_others ha).bind_done

/-- A last turn ends the loop. -/
theorem Run.iterate_done {x : β} {b : Account} {t : List Event}
    (h : Run R (body s₀) a₀ t (.done (.inr x)) b) : Run R (iterate s₀ body) a₀ t (.done x) b := by
  have hrest : Run R (afterTurn body .done (.inr x)) b [] (.done x) b := .refl _ b
  have hturn : Run R ((body s₀).bind (afterTurn body .done)) a₀ t (.done x) b := by
    simpa using h.bind hrest
  have hs : Step R (iterate s₀ body) a₀ [] ((body s₀).bind (afterTurn body .done)) a₀ :=
    ⟨rfl, rfl, rfl⟩
  exact .step (R.refl a₀) hs hturn

/-- Another turn comes before the rest of the loop. -/
theorem Run.iterate_turn {s : σ} {q : Program β} {a₁ b : Account} {t u : List Event}
    (h : Run R (body s₀) a₀ t (.done (.inl s)) a₁) (hr : Run R (iterate s body) a₁ u q b) :
    Run R (iterate s₀ body) a₀ (t ++ u) q b := by
  have hturn : Run R ((body s₀).bind (afterTurn body .done)) a₀ (t ++ u) q b := h.bind hr
  exact .silent ⟨rfl, rfl, rfl⟩ hturn

/-! ## Actions, shields and races -/

/-- An action of the surroundings shows its answer. -/
theorem Run.of_external (e : External β) (r : β) (a : Account) :
    Run R (external e) a [.answered e r] (.done r) a :=
  .single ⟨r, ⟨rfl, rfl⟩, rfl⟩

/-- An action on the account, with nothing done by the others. -/
theorem Run.of_await {f : Account → Option (β × Account)} {r : β} {a b : Account}
    (h : f a = some (r, b)) : Run R (await f) a [] (.done r) b :=
  .single ⟨r, ⟨rfl, h⟩, rfl⟩

/-- A run of an action on the account: the others, and then, if it is finished, the action and the
others. -/
theorem Run.await_cases {f : Account → Option (β × Account)} {q : Program β} {a b : Account}
    {t : List Event} (h : Run R (await f) a t q b) :
    t = [] ∧ ((q = await f ∧ R.may a b) ∨
      ∃ r a₁ a₂, q = .done r ∧ R.may a a₁ ∧ f a₁ = some (r, a₂) ∧ R.may a₂ b) := by
  cases h with
  | stop h => exact ⟨rfl, .inl ⟨rfl, h⟩⟩
  | step ha hs hr =>
    obtain ⟨x, ⟨rfl, hf⟩, rfl⟩ := hs
    obtain ⟨rfl, rfl, hb⟩ := hr.done_inv
    exact ⟨rfl, .inr ⟨x, _, _, rfl, ha, hf, hb⟩⟩

/-- A finished run of an action on the account: the others, the action, the others. -/
theorem Run.await_done {f : Account → Option (β × Account)} {r : β} {a b : Account} {t : List Event}
    (h : Run R (await f) a t (.done r) b) :
    t = [] ∧ ∃ a₁ a₂, R.may a a₁ ∧ f a₁ = some (r, a₂) ∧ R.may a₂ b := by
  obtain ⟨ht, ⟨hq, -⟩ | ⟨x, a₁, a₂, hq, ha, hf, hb⟩⟩ := h.await_cases
  · cases hq
  · cases hq
    exact ⟨ht, a₁, a₂, ha, hf, hb⟩

theorem Run.read_done {f : Account → β} {r : β} {a b : Account} {t : List Event}
    (h : Run R (read f) a t (.done r) b) :
    t = [] ∧ ∃ a₁, R.may a a₁ ∧ r = f a₁ ∧ R.may a₁ b := by
  obtain ⟨ht, a₁, a₂, ha, hf, hb⟩ := h.await_done
  simp only [Option.some.injEq, Prod.mk.injEq] at hf
  obtain ⟨rfl, rfl⟩ := hf
  exact ⟨ht, a₁, ha, rfl, hb⟩

theorem Run.update_done {f : Account → Account} {a b : Account} {t : List Event}
    (h : Run R (update f) a t (.done ()) b) :
    t = [] ∧ ∃ a₁, R.may a a₁ ∧ R.may (f a₁) b := by
  obtain ⟨ht, a₁, a₂, ha, hf, hb⟩ := h.await_done
  simp only [Option.some.injEq, Prod.mk.injEq] at hf
  obtain ⟨-, rfl⟩ := hf
  exact ⟨ht, a₁, ha, hb⟩

/-- A finished run of an action of the surroundings shows its answer. -/
theorem Run.external_done {e : External β} {r : β} {a b : Account} {t : List Event}
    (h : Run R (external e) a t (.done r) b) : t = [.answered e r] ∧ R.may a b := by
  cases h with
  | step ha hs hr =>
    obtain ⟨x, ⟨rfl, rfl⟩, rfl⟩ := hs
    obtain ⟨rfl, hx, hb⟩ := hr.done_inv
    cases hx
    exact ⟨rfl, R.trans ha hb⟩

/-- A finished handling of updates: the handler and the others have done what they may. -/
theorem Run.dispatch_done {updates : Updates} {o : Except InboundError Unit} {a b : Account}
    {t : List Event} (h : Run R (perform (.dispatch updates)) a t (.done o) b) :
    t = [.dispatched updates o] ∧ R.may a b := by
  cases h with
  | step ha hs hr =>
    obtain ⟨x, ⟨rfl, hx⟩, rfl⟩ := hs
    obtain ⟨rfl, ho, hb⟩ := hr.done_inv
    cases ho
    exact ⟨rfl, R.trans ha (R.trans hx hb)⟩

/-- A finished look at the profile shows the one that the account has at that moment. -/
theorem Run.currentProfile_done {profile : Profile} {a b : Account} {t : List Event}
    (h : Run R currentProfile a t (.done profile) b) :
    ∃ x, R.may a x ∧ t = [.answered (.profile x.profile) profile] ∧ R.may x b := by
  obtain ⟨id, t₁, t₂, a₁, rfl, hread, h₁⟩ := h.bind_done
  obtain ⟨rfl, x, hx, rfl, ha₁⟩ := hread.read_done
  obtain ⟨rfl, hb⟩ := h₁.external_done
  exact ⟨x, hx, rfl, R.trans ha₁ hb⟩

/-- A finished step of the login was carried out with the login flow taken. -/
theorem Run.withLogin_done {step : LoginFlow → Program (β × LoginFlow)} {r : β} {a b : Account}
    {t : List Event} (h : Run R (withLogin step) a t (.done r) b) :
    ∃ flow flow' x y, R.may a x ∧ x.login = .free flow ∧
      Run R (step flow) { x with login := .taken } t (.done (r, flow')) y ∧
      R.may { y with login := .free flow' } b := by
  obtain ⟨flow, t₁, t₂, a₁, rfl, htake, h₁⟩ := h.bind_done
  obtain ⟨⟨_, flow'⟩, t₃, t₄, a₂, rfl, hstep, h₂⟩ := h₁.bind_done
  obtain ⟨_, t₅, t₆, a₃, rfl, hput, h₃⟩ := h₂.bind_done
  obtain ⟨rfl, x, x', hx, hfree, ha₁⟩ := htake.await_done
  obtain ⟨rfl, y, hy, ha₃⟩ := hput.update_done
  obtain ⟨rfl, hr, hb⟩ := h₃.done_inv
  cases hr
  split at hfree
  · next f hf =>
    simp only [Option.some.injEq, Prod.mk.injEq] at hfree
    obtain ⟨rfl, rfl⟩ := hfree
    simp only [List.nil_append, List.append_nil]
    exact ⟨f, flow', x, y, hx, hf, (hstep.after_others ha₁).before_others hy, R.trans ha₃ hb⟩
  · cases hfree

/-- A step of the login is carried out with the login flow taken, and what it leaves is put back. -/
theorem Run.of_withLogin {step : LoginFlow → Program (β × LoginFlow)} {flow flow' : LoginFlow} {r : β}
    {a b : Account} {t : List Event} (ha : a.login = .free flow)
    (h : Run R (step flow) { a with login := .taken } t (.done (r, flow')) b) :
    Run R (withLogin step) a t (.done r) { b with login := .free flow' } := by
  have hput : Run R (update fun a => { a with login := .free flow' }) b [] (.done ())
      { b with login := .free flow' } := .of_await rfl
  have hrest : Run R (step flow >>= fun o =>
      update (fun a => { a with login := .free o.2 }) >>= fun _ => .done o.1)
      { a with login := .taken } (t ++ []) (.done r) { b with login := .free flow' } :=
    h.bind (hput.bind (.refl _ _))
  rw [List.append_nil] at hrest
  unfold withLogin
  refine Run.bind (Run.of_await ?_) hrest
  simp only [ha]

/-- What is done under a shield does not see the token. -/
theorem Run.shield_done {p : Program β} {r : β} {a b : Account} {t : List Event}
    (h : Run R (shield p) a t (.done r) b) : Run R p a t (.done r) b ∧ .cancelled ∉ t := by
  generalize hp : shield p = p₁ at h
  generalize hr : Program.done r = q at h
  induction h generalizing p with
  | stop _ =>
    subst hp
    cases hr
  | step ha hs hrun ih =>
    subst hp
    obtain ⟨p', hs, hc, rfl⟩ | ⟨x, rfl, rfl, rfl, rfl⟩ := hs
    · obtain ⟨hp', hc'⟩ := ih rfl hr
      exact ⟨.step ha hs hp', by simp [hc, hc']⟩
    · subst hr
      obtain ⟨rfl, hx, hb⟩ := hrun.done_inv
      cases hx
      exact ⟨.stop (R.trans ha hb), by simp⟩

/-- Whatever does not see the token can be done under a shield. -/
theorem Run.of_shield {p q : Program β} {k : β → Program α} {a b : Account} {t : List Event}
    (h : Run R p a t q b) (hc : .cancelled ∉ t) : Run R (.shielded p k) a t (.shielded q k) b := by
  induction h with
  | stop h => exact .stop h
  | @step p p' _ _ a₁ a₂ _ es t ha hs _ ih =>
    rw [List.mem_append, not_or] at hc
    have hs' : Step R (.shielded p k) a₁ es (.shielded p' k) a₂ := .inl ⟨p', hs, hc.1, rfl⟩
    exact .step ha hs' (ih hc.2)

theorem Run.of_shield_done {p : Program β} {k : β → Program α} {r : β} {a b : Account}
    {t : List Event} (h : Run R p a t (.done r) b) (hc : .cancelled ∉ t) :
    Run R (.shielded p k) a t (k r) b := by
  have hlast : Step R (.shielded (.done r) k) b [] (k r) b := .inr ⟨r, rfl, rfl, rfl, rfl⟩
  simpa using (h.of_shield hc).append (.single hlast)

/-- The left side of a race may go on. -/
theorem Run.race_left {γ : Type} {p p' : Program β} {q : Program γ} {k : β ⊕ γ → Program α}
    {a b : Account} {t : List Event} (h : Run R p a t p' b) :
    Run R (.race p q k) a t (.race p' q k) b := by
  induction h with
  | stop h => exact .stop h
  | @step p p' _ _ a₁ a₂ _ es _ ha hs _ ih =>
    have hs' : Step R (.race p q k) a₁ es (.race p' q k) a₂ := .inl ⟨p', hs, rfl⟩
    exact .step ha hs' ih

/-- So may the right side. -/
theorem Run.race_right {γ : Type} {p : Program γ} {q q' : Program β} {k : γ ⊕ β → Program α}
    {a b : Account} {t : List Event} (h : Run R q a t q' b) :
    Run R (.race p q k) a t (.race p q' k) b := by
  induction h with
  | stop h => exact .stop h
  | @step q q' _ _ a₁ a₂ _ es _ ha hs _ ih =>
    have hs' : Step R (.race p q k) a₁ es (.race p q' k) a₂ := .inr (.inl ⟨q', hs, rfl⟩)
    exact .step ha hs' ih

theorem Run.race_left_done {γ : Type} {p : Program β} {q : Program γ} {k : β ⊕ γ → Program α}
    {r : β} {a b : Account} {t : List Event} (h : Run R p a t (.done r) b) :
    Run R (.race p q k) a t (k (.inl r)) b := by
  have hlast : Step R (.race (.done r) q k) b [] (k (.inl r)) b :=
    .inr (.inr (.inl ⟨r, rfl, rfl, rfl, rfl⟩))
  simpa using h.race_left.append (.single hlast)

theorem Run.race_right_done {γ : Type} {p : Program γ} {q : Program β} {k : γ ⊕ β → Program α}
    {r : β} {a b : Account} {t : List Event} (h : Run R q a t (.done r) b) :
    Run R (.race p q k) a t (k (.inr r)) b := by
  have hlast : Step R (.race p (.done r) k) b [] (k (.inr r)) b :=
    .inr (.inr (.inr ⟨r, rfl, rfl, rfl, rfl⟩))
  simpa using h.race_right.append (.single hlast)

/-- A program that can be cancelled may give its answer. -/
theorem Run.of_unlessCancelled {p : Program β} {r : β} {a b : Account} {t : List Event}
    (h : Run R p a t (.done r) b) : Run R (unlessCancelled p) a t (.done (some r)) b :=
  h.race_right_done

/-- The answer of a program that can be cancelled is that of a run of the program, which shows the same
but for the news that the token is cancelled. -/
theorem Run.unlessCancelled_shows {p : Program β} {r : β} {a b : Account} {t : List Event}
    (h : Run R (unlessCancelled p) a t (.done (some r)) b) :
    ∃ u, Run R p a u (.done r) b ∧
      t.filter (fun e => !e.isCancelled) = u.filter fun e => !e.isCancelled := by
  obtain ⟨k, hk, hleft, hright⟩ : ∃ k : Unit ⊕ β → Program (Option β),
      unlessCancelled p = .race cancelled p k ∧ k (.inl ()) = .done none ∧
        ∀ r, k (.inr r) = .done (some r) := ⟨_, rfl, rfl, fun _ => rfl⟩
  -- the token may turn out to be cancelled, and `p` be done first all the same
  have key {q q' : Program (Option β)} {a b : Account} {t : List Event} (hrun : Run R q a t q' b) :
      ∀ l p, (l = cancelled ∨ l = .done ()) → q = .race l p k → q' = .done (some r) →
        ∃ u, Run R p a u (.done r) b ∧
          t.filter (fun e => !e.isCancelled) = u.filter fun e => !e.isCancelled := by
    induction hrun with
    | stop _ =>
      rintro l p - rfl hq
      cases hq
    | step ha hs hr ih =>
      rintro l p hl rfl hq
      obtain ⟨l', hl', rfl⟩ | ⟨p', hp', rfl⟩ | ⟨x, rfl, rfl, rfl, rfl⟩ | ⟨x, rfl, rfl, rfl, rfl⟩ := hs
      · obtain rfl | rfl := hl
        · obtain ⟨x, ⟨rfl, rfl⟩, rfl⟩ := hl'
          obtain ⟨u, hu, hshows⟩ := ih _ p (.inr rfl) rfl hq
          exact ⟨u, hu.after_others ha, hshows⟩
        · exact hl'.elim
      · obtain ⟨u, hu, hshows⟩ := ih l p' hl rfl hq
        exact ⟨_, .step ha hp' hu, by rw [List.filter_append, hshows, List.filter_append]⟩
      · subst hq
        rw [hleft] at hr
        cases hr.done_inv.2.1
      · subst hq
        rw [hright] at hr
        obtain ⟨rfl, hx, hb⟩ := hr.done_inv
        cases hx
        exact ⟨[], .stop (R.trans ha hb), rfl⟩
  exact key h _ _ (.inl rfl) hk rfl

theorem Run.unlessCancelled_done {p : Program β} {r : β} {a b : Account} {t : List Event}
    (h : Run R (unlessCancelled p) a t (.done (some r)) b) :
    ∃ u, Run R p a u (.done r) b := by
  obtain ⟨u, hu, -⟩ := h.unlessCancelled_shows
  exact ⟨u, hu⟩

/-- The answer to an action that can be cancelled is shown, and nothing else but that the token is
cancelled. -/
theorem Run.unlessCancelled_external {e : External β} {r : β} {a b : Account} {t : List Event}
    (h : Run R (unlessCancelled (external e)) a t (.done (some r)) b) :
    ∃ u v, t = u ++ .answered e r :: v ∧ ∀ f ∈ u ++ v, f = .cancelled := by
  have hcancelled {f : Event} (hf : ¬ !f.isCancelled) : f = .cancelled := by
    cases f <;> first | rfl | exact absurd rfl hf
  obtain ⟨w, hw, hshows⟩ := h.unlessCancelled_shows
  obtain ⟨rfl, -⟩ := hw.external_done
  obtain ⟨u, v, rfl, hu, -, hv⟩ := List.filter_eq_cons_iff.1 hshows
  refine ⟨u, v, rfl, fun f hf => ?_⟩
  rcases List.mem_append.1 hf with hf | hf
  · exact hcancelled (hu f hf)
  · exact hcancelled (List.filter_eq_nil_iff.1 hv f hf)

/-! ## Races whose right side has two parts -/

/-- What becomes of the answer of a race when its right side is followed by something that is done at
once. -/
inductive Passes {γ δ : Type} (f : δ → Program β) : γ ⊕ δ → γ ⊕ β → Prop
  | left (x : γ) : Passes f (.inl x) (.inl x)
  | right {y : δ} {z : β} (h : f y = .done z) : Passes f (.inr y) (.inr z)

/-- A race in which the second part has nothing to do is a run of the race with both. -/
theorem Run.either_bind {γ δ : Type} {p : Program γ} {q : Program δ} {f : δ → Program β}
    {o : γ ⊕ δ} {o' : γ ⊕ β} {a b : Account} {t : List Event}
    (h : Run R (either p q) a t (.done o) b) (ho : Passes f o o') :
    Run R (either p (q.bind f)) a t (.done o') b := by
  generalize hr : either p q = r at h
  generalize ho₁ : Program.done o = r' at h
  induction h generalizing p q with
  | stop _ =>
    subst hr
    cases ho₁
  | @step _ _ _ _ a₁ a₂ _ es _ ha hs hrun ih =>
    subst hr
    obtain ⟨p', hs, rfl⟩ | ⟨q', hs, rfl⟩ | ⟨x, rfl, rfl, rfl, rfl⟩ | ⟨y, rfl, rfl, rfl, rfl⟩ := hs
    · have hs' : Step R (either p (q.bind f)) a₁ es (either p' (q.bind f)) a₂ := .inl ⟨p', hs, rfl⟩
      exact .step ha hs' (ih rfl ho₁)
    · have hs' : Step R (either p (q.bind f)) a₁ es (either p (q'.bind f)) a₂ :=
        .inr (.inl ⟨q'.bind f, hs.bind f, rfl⟩)
      exact .step ha hs' (ih rfl ho₁)
    · subst ho₁
      obtain ⟨rfl, hx, hb⟩ := hrun.done_inv
      cases hx
      cases ho
      exact (Run.race_left_done (.stop hb)).after_others ha
    · subst ho₁
      obtain ⟨rfl, hy, hb⟩ := hrun.done_inv
      cases hy
      cases ho with
      | right hz =>
        rw [done_bind, hz]
        exact (Run.race_right_done (.stop hb)).after_others ha

/-- A finished race whose right side has two parts is one with the first part only, or the second part
has taken a step. -/
theorem Run.either_bind_cases {γ δ : Type} {p : Program γ} {q : Program δ} {f : δ → Program β}
    {o' : γ ⊕ β} {a b : Account} {t : List Event}
    (h : Run R (either p (q.bind f)) a t (.done o') b) :
    (∃ o, Run R (either p q) a t (.done o) b ∧ Passes f o o') ∨
    ∃ p' y r u es v a₁ a₂, t = u ++ (es ++ v) ∧ Run R (either p q) a u (either p' (.done y)) a₁ ∧
      Step R (f y) a₁ es r a₂ ∧ Run R (either p' r) a₂ v (.done o') b := by
  generalize hr : either p (q.bind f) = r at h
  generalize ho : Program.done o' = r' at h
  induction h generalizing p q with
  | stop _ =>
    subst hr
    cases ho
  | @step _ _ _ a a₁ a₂ b es t ha hs hrun ih =>
    subst hr ho
    -- a step of the race with both parts, unless it is one of the second
    have hfirst {p' : Program γ} {q' : Program δ}
        (hs' : Step R (either p q) a₁ es (either p' q') a₂)
        (h : (∃ o, Run R (either p' q') a₂ t (.done o) b ∧ Passes f o o') ∨
          ∃ p'' y r u es v a₁ a₃, t = u ++ (es ++ v) ∧
            Run R (either p' q') a₂ u (either p'' (.done y)) a₁ ∧
            Step R (f y) a₁ es r a₃ ∧ Run R (either p'' r) a₃ v (.done o') b) :
        (∃ o, Run R (either p q) a (es ++ t) (.done o) b ∧ Passes f o o') ∨
          ∃ p'' y r u es' v a₁ a₃, es ++ t = u ++ (es' ++ v) ∧
            Run R (either p q) a u (either p'' (.done y)) a₁ ∧
            Step R (f y) a₁ es' r a₃ ∧ Run R (either p'' r) a₃ v (.done o') b := by
      obtain ⟨o, hrun, ho⟩ | ⟨p'', y, r, u, es', v, c, d, rfl, hrun, hsecond⟩ := h
      · exact .inl ⟨o, .step ha hs' hrun, ho⟩
      · exact .inr ⟨p'', y, r, es ++ u, es', v, c, d, by simp, .step ha hs' hrun, hsecond⟩
    obtain ⟨p', hs, rfl⟩ | ⟨r, hs, rfl⟩ | ⟨x, rfl, rfl, rfl, rfl⟩ | ⟨z, hz, rfl, rfl, rfl⟩ := hs
    · exact hfirst (.inl ⟨p', hs, rfl⟩) (ih rfl rfl)
    · obtain ⟨q', hq, rfl⟩ | ⟨y, rfl, hf⟩ := hs.bind_cases
      · exact hfirst (.inr (.inl ⟨q', hq, rfl⟩)) (ih rfl rfl)
      · exact .inr ⟨p, y, r, [], es, t, a₁, a₂, rfl, .stop ha, hf, hrun⟩
    · obtain ⟨rfl, hx, hb⟩ := hrun.done_inv
      cases hx
      exact .inl ⟨.inl x, (Run.race_left_done (.stop hb)).after_others ha, .left x⟩
    · obtain ⟨rfl, hx, hb⟩ := hrun.done_inv
      cases hx
      obtain ⟨y, rfl, hy⟩ := exists_of_bind_eq_done hz
      exact .inl ⟨.inr y, (Run.race_right_done (.stop hb)).after_others ha, .right hy⟩

end Telebridge.Program
