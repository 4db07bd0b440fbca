import Telebridge.Proofs.Program.Run
set_option autoImplicit false

/-! # The conduct of a program

Some properties of a program can be read off its actions one by one: which events it ever shows, and
what it ever does to its account. `Program.Conforms` collects them along the tree of the program. It
is kept by every step (`Step.conforms`), so it bounds what any run does (`Run.conforms`), also one
that shares the account with others or races with another program. What a program gives is read off the
same way (`Program.Gives`, `Run.gives`). -/

namespace Telebridge.Program

variable {R G : Others} {heard shown : Event → Prop} {α β σ : Type}

/-- As long as it is only told what `heard` admits, the program changes the account as `G` allows and
shows events in `shown`. -/
def Conforms (R G : Others) (heard shown : Event → Prop) : {α : Type} → Program α → Prop
  | _, .done _ => True
  | _, .act x k => ∀ a es b a', x.Leads R a es b a' → (∀ e ∈ es, heard e) →
      G.may a a' ∧ (∀ e ∈ es, shown e) ∧ Conforms R G heard shown (k b)
  | _, .loop _ body k =>
    (∀ s, Conforms R G heard shown (body s)) ∧ ∀ b, Conforms R G heard shown (k b)
  | _, .race p q k =>
    Conforms R G heard shown p ∧ Conforms R G heard shown q ∧
      ∀ r, Conforms R G heard shown (k r)
  | _, .shielded p k => Conforms R G heard shown p ∧ ∀ b, Conforms R G heard shown (k b)
  | _, .spawn _ k => ∀ t, Conforms R G heard shown (k t)

theorem conforms_done (r : α) : Conforms R G heard shown (.done r) := trivial

/-- What others may rely on, and what is shown, can be weakened. -/
theorem Conforms.mono {G' : Others} {shown' : Event → Prop} {p : Program α}
    (hG : ∀ a b, G.may a b → G'.may a b) (hE : ∀ e, shown e → shown' e)
    (h : Conforms R G heard shown p) : Conforms R G' heard shown' p := by
  induction p with
  | done r => trivial
  | act x k ih =>
    intro a es b a' hx he
    obtain ⟨ha, hes, hk⟩ := h a es b a' hx he
    exact ⟨hG a a' ha, fun e he => hE e (hes e he), ih b hk⟩
  | loop s body k ihb ih => exact ⟨fun s => ihb s (h.1 s), fun b => ih b (h.2 b)⟩
  | race p q k ihp ihq ih => exact ⟨ihp h.1, ihq h.2.1, fun r => ih r (h.2.2 r)⟩
  | shielded p k ihp ih => exact ⟨ihp h.1, fun b => ih b (h.2 b)⟩
  | spawn p k _ ih => exact fun t => ih t (h t)

/-- What holds among many others holds among few. -/
theorem Conforms.of_fewer {R' : Others} {p : Program α} (hR : ∀ a b, R'.may a b → R.may a b)
    (h : Conforms R G heard shown p) : Conforms R' G heard shown p := by
  induction p with
  | done r => trivial
  | act x k ih =>
    intro a es b a' hx he
    obtain ⟨ha, hes, hk⟩ := h a es b a' (hx.mono hR) he
    exact ⟨ha, hes, ih b hk⟩
  | loop s body k ihb ih => exact ⟨fun s => ihb s (h.1 s), fun b => ih b (h.2 b)⟩
  | race p q k ihp ihq ih => exact ⟨ihp h.1, ihq h.2.1, fun r => ih r (h.2.2 r)⟩
  | shielded p k ihp ih => exact ⟨ihp h.1, fun b => ih b (h.2 b)⟩
  | spawn p k _ ih => exact fun t => ih t (h t)

theorem Conforms.bind {p : Program α} {f : α → Program β} (hp : Conforms R G heard shown p)
    (hf : ∀ r, Conforms R G heard shown (f r)) : Conforms R G heard shown (p.bind f) := by
  induction p with
  | done r => exact hf r
  | act x k ih =>
    intro a es b a' hx he
    obtain ⟨hG, hE, hk⟩ := hp a es b a' hx he
    exact ⟨hG, hE, ih b hk hf⟩
  | loop s body k _ ih => exact ⟨hp.1, fun b => ih b (hp.2 b) hf⟩
  | race p q k _ _ ih => exact ⟨hp.1, hp.2.1, fun r => ih r (hp.2.2 r) hf⟩
  | shielded p k _ ih => exact ⟨hp.1, fun b => ih b (hp.2 b) hf⟩
  | spawn p k _ ih => exact fun t => ih t (hp t) hf

/-! ## Single actions -/

theorem conforms_perform {x : Action β} (h : ∀ a es b a', x.Leads R a es b a' →
    (∀ e ∈ es, heard e) → G.may a a' ∧ ∀ e ∈ es, shown e) :
    Conforms R G heard shown (perform x) :=
  fun a es b a' hx he => ⟨(h a es b a' hx he).1, (h a es b a' hx he).2, trivial⟩

/-- An action that shows nothing and leaves the account alone. -/
theorem conforms_silent {x : Action β}
    (h : ∀ a es b a', x.Leads R a es b a' → es = [] ∧ a' = a) :
    Conforms R G heard shown (perform x) := by
  refine conforms_perform fun a es b a' hx _ => ?_
  obtain ⟨rfl, rfl⟩ := h a es b a' hx
  exact ⟨G.refl _, by simp⟩

theorem conforms_external {e : External β}
    (h : ∀ b, heard (.answered e b) → shown (.answered e b)) :
    Conforms R G heard shown (external e) := by
  refine conforms_perform ?_
  rintro _ _ b _ ⟨rfl, rfl⟩ he
  exact ⟨G.refl _, by simpa using h b (he _ (by simp))⟩

/-- What is asked for, then what is made of an answer that can be heard. -/
theorem conforms_external_bind {e : External β} {f : β → Program α}
    (h : ∀ b, heard (.answered e b) →
      shown (.answered e b) ∧ Conforms R G heard shown (f b)) :
    Conforms R G heard shown (external e >>= f) := by
  rintro _ _ b _ ⟨rfl, rfl⟩ he
  obtain ⟨hs, hf⟩ := h b (he _ (by simp))
  exact ⟨G.refl _, by simpa using hs, hf⟩

theorem conforms_await {f : Account → Option (β × Account)}
    (h : ∀ a b a', f a = some (b, a') → G.may a a') : Conforms R G heard shown (await f) := by
  refine conforms_perform ?_
  rintro a _ b a' ⟨rfl, hf⟩ _
  exact ⟨h a b a' hf, by simp⟩

theorem conforms_read {f : Account → β} : Conforms R G heard shown (read f) := by
  refine conforms_await fun a b a' h => ?_
  simp only [Option.some.injEq, Prod.mk.injEq] at h
  exact h.2 ▸ G.refl a

theorem conforms_update {f : Account → Account} (h : ∀ a, G.may a (f a)) :
    Conforms R G heard shown (update f) := by
  refine conforms_await fun a b a' h' => ?_
  simp only [Option.some.injEq, Prod.mk.injEq] at h'
  exact h'.2 ▸ h a

theorem conforms_pause {ms : Nat} (h : ∀ how, shown (.paused ms how)) :
    Conforms R G heard shown (pause ms) := by
  refine conforms_perform ?_
  rintro _ _ b _ ⟨rfl, rfl⟩ _
  exact ⟨G.refl _, by simpa using h b⟩

theorem conforms_cancelled (h : shown .cancelled) : Conforms R G heard shown cancelled := by
  refine conforms_perform ?_
  rintro _ _ b _ ⟨rfl, rfl⟩ _
  exact ⟨G.refl _, by simpa using h⟩

theorem conforms_dispatch {updates : Updates} (hR : ∀ a b, R.may a b → G.may a b)
    (h : ∀ o, shown (.dispatched updates o)) :
    Conforms R G heard shown (perform (.dispatch updates)) := by
  refine conforms_perform ?_
  rintro a _ b a' ⟨rfl, ha⟩ _
  exact ⟨hR a a' ha, by simpa using h b⟩

/-! ## Composite programs -/

theorem conforms_iterate {s : σ} {body : σ → Program (σ ⊕ β)}
    (h : ∀ s, Conforms R G heard shown (body s)) :
    Conforms R G heard shown (iterate s body) :=
  ⟨h, fun _ => trivial⟩

theorem conforms_either {p : Program α} {q : Program β} (hp : Conforms R G heard shown p)
    (hq : Conforms R G heard shown q) : Conforms R G heard shown (either p q) :=
  ⟨hp, hq, fun _ => trivial⟩

theorem conforms_unlessCancelled {p : Program β} (hp : Conforms R G heard shown p)
    (h : shown .cancelled) : Conforms R G heard shown (unlessCancelled p) :=
  ⟨conforms_cancelled h, hp, fun r => by cases r <;> trivial⟩

theorem conforms_shield {p : Program β} (hp : Conforms R G heard shown p) :
    Conforms R G heard shown (shield p) :=
  ⟨hp, fun _ => trivial⟩

/-- What a background task does is not the doing of the program that starts it. -/
theorem conforms_start {p : Program RunOutcome} : Conforms R G heard shown (start p) :=
  fun _ => trivial

theorem conforms_currentProfile
    (h : ∀ id b, shown (.answered (.profile id) b)) :
    Conforms R G heard shown currentProfile :=
  conforms_read.bind fun id => conforms_external fun b _ => h id b

/-! ## Steps and runs -/

theorem conforms_unroll {s : σ} {body : σ → Program (σ ⊕ β)} {k : β → Program α}
    (h : Conforms R G heard shown (.loop s body k)) :
    Conforms R G heard shown (unroll s body k) := by
  refine (h.1 s).bind fun o => ?_
  cases o with
  | inl s' => exact h
  | inr b => exact h.2 b

/-- A step of a program that conforms is admissible, and leaves a program that conforms. -/
theorem Step.conforms {p q : Program α} {a a' : Account} {es : List Event}
    (hp : Conforms R G heard shown p) (h : Step R p a es q a') (he : ∀ e ∈ es, heard e) :
    G.may a a' ∧ (∀ e ∈ es, shown e) ∧ Conforms R G heard shown q := by
  induction p generalizing es a a' with
  | done r => exact h.elim
  | act x k _ =>
    obtain ⟨b, hx, rfl⟩ := h
    exact hp a es b a' hx he
  | loop s body k _ _ =>
    obtain ⟨rfl, rfl, rfl⟩ := h
    exact ⟨G.refl _, by simp, conforms_unroll hp⟩
  | race p p' k ihp ihp' _ =>
    obtain ⟨h₁, h₂, h₃⟩ := hp
    obtain ⟨r, hr, rfl⟩ | ⟨r, hr, rfl⟩ | ⟨b, rfl, rfl, rfl, rfl⟩ | ⟨c, rfl, rfl, rfl, rfl⟩ := h
    · obtain ⟨hG, hE, hr⟩ := ihp h₁ hr he
      exact ⟨hG, hE, hr, h₂, h₃⟩
    · obtain ⟨hG, hE, hr⟩ := ihp' h₂ hr he
      exact ⟨hG, hE, h₁, hr, h₃⟩
    · exact ⟨G.refl _, by simp, h₃ _⟩
    · exact ⟨G.refl _, by simp, h₃ _⟩
  | shielded p k ihp _ =>
    obtain ⟨h₁, h₂⟩ := hp
    obtain ⟨r, hr, _, rfl⟩ | ⟨b, rfl, rfl, rfl, rfl⟩ := h
    · obtain ⟨hG, hE, hr⟩ := ihp h₁ hr he
      exact ⟨hG, hE, hr, h₂⟩
    · exact ⟨G.refl _, by simp, h₂ _⟩
  | spawn p k _ _ =>
    obtain ⟨rfl, rfl, t, rfl⟩ := h
    exact ⟨G.refl _, by simp, hp t⟩

/-- A run of a program that conforms is admissible from beginning to end, if the others keep to `G`
as well. -/
theorem Run.conforms {p q : Program α} {a b : Account} {t : List Event}
    (hR : ∀ a b, R.may a b → G.may a b) (hp : Conforms R G heard shown p) (h : Run R p a t q b)
    (ht : ∀ e ∈ t, heard e) :
    G.may a b ∧ (∀ e ∈ t, shown e) ∧ Conforms R G heard shown q := by
  induction h with
  | stop h => exact ⟨hR _ _ h, by simp, hp⟩
  | step h hs _ ih =>
    obtain ⟨hG, hE, hp'⟩ := hs.conforms hp fun e he => ht e (List.mem_append_left _ he)
    obtain ⟨hG', hE', hq⟩ := ih hp' fun e he => ht e (List.mem_append_right _ he)
    refine ⟨G.trans (hR _ _ h) (G.trans hG hG'), fun e he => ?_, hq⟩
    rcases List.mem_append.1 he with he | he
    · exact hE e he
    · exact hE' e he

-- from here on it is used through these lemmas only, and no program is evaluated for it
attribute [irreducible] Conforms

/-! ## Answers -/

/-- Whatever the program meets, its answer satisfies `P`. -/
def Gives : {α : Type} → (α → Prop) → Program α → Prop
  | _, P, .done r => P r
  | _, P, .act _ k => ∀ b, Gives P (k b)
  | _, P, .loop _ _ k => ∀ b, Gives P (k b)
  | _, P, .race _ _ k => ∀ r, Gives P (k r)
  | _, P, .shielded _ k => ∀ b, Gives P (k b)
  | _, P, .spawn _ k => ∀ t, Gives P (k t)

theorem Gives.bind {P : β → Prop} {Q : α → Prop} {p : Program α} {f : α → Program β}
    (hp : Gives Q p) (hf : ∀ r, Q r → Gives P (f r)) : Gives P (p.bind f) := by
  induction p with
  | done r => exact hf r hp
  | act x k ih => exact fun b => ih b (hp b) hf
  | loop s body k _ ih => exact fun b => ih b (hp b) hf
  | race p q k _ _ ih => exact fun r => ih r (hp r) hf
  | shielded p k _ ih => exact fun b => ih b (hp b) hf
  | spawn p k _ ih => exact fun t => ih t (hp t) hf

theorem Gives.mono {P Q : α → Prop} {p : Program α} (hp : Gives P p) (h : ∀ r, P r → Q r) :
    Gives Q p := by
  rw [← bind_done p]
  exact hp.bind h

theorem gives_true (p : Program α) : Gives (fun _ => True) p := by
  induction p with
  | done r => trivial
  | act x k ih => exact ih
  | loop s body k _ ih => exact ih
  | race p q k _ _ ih => exact ih
  | shielded p k _ ih => exact ih
  | spawn p k _ ih => exact ih

/-- If it does not matter what the first part gives, only what follows counts. -/
theorem gives_bind {P : β → Prop} {p : Program α} {f : α → Program β} (hf : ∀ r, Gives P (f r)) :
    Gives P (p.bind f) :=
  (gives_true p).bind fun r _ => hf r

theorem Step.gives {P : α → Prop} {p q : Program α} {a a' : Account} {es : List Event}
    (hp : Gives P p) (h : Step R p a es q a') : Gives P q := by
  cases p with
  | done r => exact h.elim
  | act x k =>
    obtain ⟨b, -, rfl⟩ := h
    exact hp b
  | loop s body k =>
    obtain ⟨-, -, rfl⟩ := h
    refine gives_bind fun o => ?_
    cases o with
    | inl s' => exact hp
    | inr b => exact hp b
  | race p q k =>
    obtain ⟨r, -, rfl⟩ | ⟨r, -, rfl⟩ | ⟨b, -, -, -, rfl⟩ | ⟨c, -, -, -, rfl⟩ := h
    · exact hp
    · exact hp
    · exact hp _
    · exact hp _
  | shielded p k =>
    obtain ⟨r, -, -, rfl⟩ | ⟨b, -, -, -, rfl⟩ := h
    · exact hp
    · exact hp b
  | spawn p k =>
    obtain ⟨-, -, t, rfl⟩ := h
    exact hp t

theorem Run.gives {P : α → Prop} {p : Program α} {r : α} {a b : Account} {t : List Event}
    (hp : Gives P p) (h : Run R p a t (.done r) b) : P r := by
  generalize hq : Program.done r = q at h
  induction h with
  | stop _ =>
    subst hq
    exact hp
  | step _ hs _ ih => exact ih (hs.gives hp) hq

end Telebridge.Program
