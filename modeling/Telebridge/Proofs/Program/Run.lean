import Telebridge.Program.Basic
set_option autoImplicit false

/-! # Steps and runs of programs

What a program can do, one step at a time, whatever its surroundings answer and whatever the other
activities of the account do in between. `Program.Step` is a single step, `Program.Run` any number of
them, finished or not, together with the events that they show. A batch of updates that is handed to
the handler counts as one event: what the handler asks for is not this program's doing, and what it
does to the account is what others may do.

The main statements take runs of `p.bind f` apart and put them together again (`Run.bind_cases`,
`Run.bind`), so that what a function of the library does follows from what its parts do. -/

namespace Telebridge

/-- What a program shows while it runs: answers of the surroundings, pauses, the news that its token
is cancelled, and updates that were handled. -/
inductive Event : Type 1 where
  | answered {β : Type} (e : External β) (b : β)
  | paused (ms : Nat) (how : Pause)
  | cancelled
  | dispatched (updates : Updates) (outcome : Except InboundError Unit)

/-- Whether the event is the news that the token is cancelled. -/
def Event.isCancelled : Event → Bool
  | .cancelled => true
  | _ => false

/-- What the other activities of an account may do to it between two steps of a program. -/
structure Others where
  may : Account → Account → Prop
  refl : ∀ a, may a a
  trans : ∀ {a b c}, may a b → may b c → may a c

/-- Nobody else uses the account. -/
def Others.nobody : Others where
  may a b := b = a
  refl _ := rfl
  trans h h' := h'.trans h

/-- The others leave the configuration alone. -/
def Others.sameConfig : Others where
  may a b := b.config = a.config
  refl _ := rfl
  trans h h' := h'.trans h

/-- The others keep a property of the account. -/
def Others.keeping (P : Account → Prop) : Others where
  may a b := P a → P b
  refl _ := id
  trans h h' := h' ∘ h

/-- What a single action can lead to: the events it shows, its answer, and the account after it. -/
def Action.Leads (R : Others) :
    {β : Type} → Action β → Account → List Event → β → Account → Prop
  | _, .external e, a, es, b, a' => es = [.answered e b] ∧ a' = a
  | _, .account f, a, es, b, a' => es = [] ∧ f a = some (b, a')
  | _, .pause ms, a, es, b, a' => es = [.paused ms b] ∧ a' = a
  | _, .cancelled, a, es, _, a' => es = [.cancelled] ∧ a' = a
  | _, .cancel _, a, es, _, a' => es = [] ∧ a' = a
  | _, .outcome? _, a, es, _, a' => es = [] ∧ a' = a
  | _, .join _, a, es, _, a' => es = [] ∧ a' = a
  | _, .dispatch updates, a, es, b, a' => es = [.dispatched updates b] ∧ R.may a a'

/-- What an action can lead to among few others, it can lead to among many. -/
theorem Action.Leads.mono {R R' : Others} {β : Type} {x : Action β} {a a' : Account}
    {es : List Event} {b : β} (hR : ∀ a b, R.may a b → R'.may a b) (h : x.Leads R a es b a') :
    x.Leads R' a es b a' := by
  cases x with
  | dispatch updates => exact ⟨h.1, hR a a' h.2⟩
  | _ => exact h

namespace Program

variable {R : Others} {α β σ : Type}

/-- A single step of a program. In a race either side may take it, and the first to be done decides;
under a shield the token is not seen. -/
def Step (R : Others) :
    {α : Type} → Program α → Account → List Event → Program α → Account → Prop
  | _, .done _, _, _, _, _ => False
  | _, .act x k, a, es, q, a' => ∃ b, x.Leads R a es b a' ∧ q = k b
  | _, .loop s body k, a, es, q, a' => es = [] ∧ a' = a ∧ q = unroll s body k
  | _, .race p p' k, a, es, q, a' =>
    (∃ r, Step R p a es r a' ∧ q = .race r p' k) ∨
    (∃ r, Step R p' a es r a' ∧ q = .race p r k) ∨
    (∃ b, p = .done b ∧ es = [] ∧ a' = a ∧ q = k (.inl b)) ∨
    (∃ c, p' = .done c ∧ es = [] ∧ a' = a ∧ q = k (.inr c))
  | _, .shielded p k, a, es, q, a' =>
    (∃ r, Step R p a es r a' ∧ Event.cancelled ∉ es ∧ q = .shielded r k) ∨
    (∃ b, p = .done b ∧ es = [] ∧ a' = a ∧ q = k b)
  | _, .spawn _ k, a, es, q, a' => es = [] ∧ a' = a ∧ ∃ t, q = k t

/-- Any number of steps, with the others before, between and after them. -/
inductive Run (R : Others) {α : Type} :
    Program α → Account → List Event → Program α → Account → Prop
  | stop {p : Program α} {a b : Account} (h : R.may a b) : Run R p a [] p b
  | step {p p' q : Program α} {a a₁ a₂ b : Account} {es t : List Event} (h : R.may a a₁)
      (hs : Step R p a₁ es p' a₂) (hr : Run R p' a₂ t q b) : Run R p a (es ++ t) q b

/-! ## Single steps -/

/-- What follows a turn of a loop. -/
def afterTurn (body : σ → Program (σ ⊕ β)) (k : β → Program α) : σ ⊕ β → Program α
  | .inl s => .loop s body k
  | .inr b => k b

theorem unroll_eq (s : σ) (body : σ → Program (σ ⊕ β)) (k : β → Program α) :
    unroll s body k = (body s).bind (afterTurn body k) := rfl

theorem unroll_bind {γ : Type} (s : σ) (body : σ → Program (σ ⊕ β)) (k : β → Program α)
    (f : α → Program γ) :
    (unroll s body k).bind f = unroll s body fun b => (k b).bind f := by
  simp only [unroll, bind_assoc]
  congr 1
  funext o
  cases o <;> rfl

@[simp] theorem not_step_done {r : α} {a a' : Account} {es : List Event} {q : Program α} :
    ¬ Step R (.done r) a es q a' := id

/-- A program and what follows it are done only if both are. -/
theorem exists_of_bind_eq_done {p : Program α} {f : α → Program β} {r : β}
    (h : p.bind f = .done r) : ∃ x, p = .done x ∧ f x = .done r := by
  cases p with
  | done x => exact ⟨x, rfl, h⟩
  | _ => simp [Program.bind] at h

/-- A program that can take a step is not done. -/
theorem Step.ne_done {p q : Program α} {a a' : Account} {es : List Event} {r : α}
    (h : Step R p a es q a') : p ≠ .done r := by
  rintro rfl
  exact h

/-- Whatever follows a program does not keep it from its steps. -/
theorem Step.bind {p q : Program α} {a a' : Account} {es : List Event} (f : α → Program β)
    (h : Step R p a es q a') : Step R (p.bind f) a es (q.bind f) a' := by
  cases p with
  | done r => exact h.elim
  | act x k =>
    obtain ⟨b, hx, rfl⟩ := h
    exact ⟨b, hx, rfl⟩
  | loop s body k =>
    obtain ⟨rfl, rfl, rfl⟩ := h
    exact ⟨rfl, rfl, unroll_bind s body k f⟩
  | race p p' k =>
    obtain ⟨r, hr, rfl⟩ | ⟨r, hr, rfl⟩ | ⟨b, rfl, rfl, rfl, rfl⟩ | ⟨c, rfl, rfl, rfl, rfl⟩ := h
    · exact .inl ⟨r, hr, rfl⟩
    · exact .inr (.inl ⟨r, hr, rfl⟩)
    · exact .inr (.inr (.inl ⟨b, rfl, rfl, rfl, rfl⟩))
    · exact .inr (.inr (.inr ⟨c, rfl, rfl, rfl, rfl⟩))
  | shielded p k =>
    obtain ⟨r, hr, hc, rfl⟩ | ⟨b, rfl, rfl, rfl, rfl⟩ := h
    · exact .inl ⟨r, hr, hc, rfl⟩
    · exact .inr ⟨b, rfl, rfl, rfl, rfl⟩
  | spawn p k =>
    obtain ⟨rfl, rfl, t, rfl⟩ := h
    exact ⟨rfl, rfl, t, rfl⟩

/-- A step of a program and what follows it is a step of the program, unless that is done. -/
theorem Step.bind_cases {p : Program α} {f : α → Program β} {q : Program β} {a a' : Account}
    {es : List Event} (h : Step R (p.bind f) a es q a') :
    (∃ p', Step R p a es p' a' ∧ q = p'.bind f) ∨ (∃ r, p = .done r ∧ Step R (f r) a es q a') := by
  cases p with
  | done r => exact .inr ⟨r, rfl, h⟩
  | act x k =>
    obtain ⟨b, hx, rfl⟩ := h
    exact .inl ⟨k b, ⟨b, hx, rfl⟩, rfl⟩
  | loop s body k =>
    obtain ⟨rfl, rfl, rfl⟩ := h
    exact .inl ⟨_, ⟨rfl, rfl, rfl⟩, (unroll_bind s body k f).symm⟩
  | race p p' k =>
    obtain ⟨r, hr, rfl⟩ | ⟨r, hr, rfl⟩ | ⟨b, rfl, rfl, rfl, rfl⟩ | ⟨c, rfl, rfl, rfl, rfl⟩ := h
    · exact .inl ⟨.race r p' k, .inl ⟨r, hr, rfl⟩, rfl⟩
    · exact .inl ⟨.race p r k, .inr (.inl ⟨r, hr, rfl⟩), rfl⟩
    · exact .inl ⟨k (.inl b), .inr (.inr (.inl ⟨b, rfl, rfl, rfl, rfl⟩)), rfl⟩
    · exact .inl ⟨k (.inr c), .inr (.inr (.inr ⟨c, rfl, rfl, rfl, rfl⟩)), rfl⟩
  | shielded p k =>
    obtain ⟨r, hr, hc, rfl⟩ | ⟨b, rfl, rfl, rfl, rfl⟩ := h
    · exact .inl ⟨.shielded r k, .inl ⟨r, hr, hc, rfl⟩, rfl⟩
    · exact .inl ⟨k b, .inr ⟨b, rfl, rfl, rfl, rfl⟩, rfl⟩
  | spawn p k =>
    obtain ⟨rfl, rfl, t, rfl⟩ := h
    exact .inl ⟨k t, ⟨rfl, rfl, t, rfl⟩, rfl⟩

/-- A step among few others is one among many. -/
theorem Step.mono {R' : Others} {p q : Program α} {a a' : Account} {es : List Event}
    (hR : ∀ a b, R.may a b → R'.may a b) (h : Step R p a es q a') : Step R' p a es q a' := by
  induction p generalizing es a a' with
  | done r => exact h
  | act x k _ =>
    obtain ⟨b, hx, rfl⟩ := h
    exact ⟨b, hx.mono hR, rfl⟩
  | loop s body k _ _ => exact h
  | race p p' k ihp ihp' _ =>
    obtain ⟨r, hr, rfl⟩ | ⟨r, hr, rfl⟩ | h := h
    · exact .inl ⟨r, ihp hr, rfl⟩
    · exact .inr (.inl ⟨r, ihp' hr, rfl⟩)
    · exact .inr (.inr h)
  | shielded p k ihp _ =>
    obtain ⟨r, hr, hc, rfl⟩ | h := h
    · exact .inl ⟨r, ihp hr, hc, rfl⟩
    · exact .inr h
  | spawn p k _ _ => exact h

/-! ## Runs -/

namespace Run

/-- Nothing done yet. -/
theorem refl (p : Program α) (a : Account) : Run R p a [] p a :=
  .stop (R.refl a)

/-- A single step is a run. -/
theorem single {p q : Program α} {a a' : Account} {es : List Event} (h : Step R p a es q a') :
    Run R p a es q a' := by
  simpa using Run.step (R.refl a) h (.refl q a')

/-- A step that shows nothing, then a run. -/
theorem silent {p p' q : Program α} {a a₁ b : Account} {t : List Event} (h : Step R p a [] p' a₁)
    (hr : Run R p' a₁ t q b) : Run R p a t q b :=
  .step (R.refl a) h hr

/-- What the others do before a run belongs to it. -/
theorem after_others {p q : Program α} {a a₁ b : Account} {t : List Event} (h : R.may a a₁)
    (hr : Run R p a₁ t q b) : Run R p a t q b := by
  cases hr with
  | stop h' => exact .stop (R.trans h h')
  | step h' hs hr => exact .step (R.trans h h') hs hr

/-- A run among few others is one among many. -/
theorem mono {R' : Others} {p q : Program α} {a b : Account} {t : List Event}
    (hR : ∀ a b, R.may a b → R'.may a b) (h : Run R p a t q b) : Run R' p a t q b := by
  induction h with
  | stop h => exact .stop (hR _ _ h)
  | step h hs _ ih => exact .step (hR _ _ h) (hs.mono hR) ih

/-- One run after another. -/
theorem append {p q r : Program α} {a b c : Account} {t u : List Event} (h : Run R p a t q b)
    (h' : Run R q b u r c) : Run R p a (t ++ u) r c := by
  induction h with
  | stop h => exact h'.after_others h
  | step h hs _ ih =>
    rw [List.append_assoc]
    exact .step h hs (ih h')

/-- What the others do after a run belongs to it. -/
theorem before_others {p q : Program α} {a b c : Account} {t : List Event} (hr : Run R p a t q b)
    (h : R.may b c) : Run R p a t q c := by
  simpa using hr.append (.stop h)

/-- A program that is done does nothing more. -/
theorem done_inv {r : α} {q : Program α} {a b : Account} {t : List Event}
    (h : Run R (.done r) a t q b) : t = [] ∧ q = .done r ∧ R.may a b := by
  cases h with
  | stop h => exact ⟨rfl, rfl, h⟩
  | step _ hs _ => exact hs.elim

/-- Whatever follows a program does not keep it from its runs. -/
theorem bind_left {p q : Program α} {a b : Account} {t : List Event} (f : α → Program β)
    (h : Run R p a t q b) : Run R (p.bind f) a t (q.bind f) b := by
  induction h with
  | stop h => exact .stop h
  | step h hs _ ih => exact .step h (hs.bind f) ih

/-- A program runs to its end, then what follows it runs. -/
theorem bind {p : Program α} {f : α → Program β} {q : Program β} {r : α} {a a₁ b : Account}
    {t u : List Event} (h : Run R p a t (.done r) a₁) (h' : Run R (f r) a₁ u q b) :
    Run R (p.bind f) a (t ++ u) q b :=
  (h.bind_left f).append h'

/-- A run of a program and what follows it is a run of the program that has not ended yet, or one
that has, followed by a run of the rest. -/
theorem bind_cases {p : Program α} {f : α → Program β} {q : Program β} {a b : Account}
    {t : List Event} (h : Run R (p.bind f) a t q b) :
    (∃ p', Run R p a t p' b ∧ q = p'.bind f) ∨
    (∃ r t₁ t₂ a₁, t = t₁ ++ t₂ ∧ Run R p a t₁ (.done r) a₁ ∧ Run R (f r) a₁ t₂ q b) := by
  generalize hp : p.bind f = pf at h
  induction h generalizing p with
  | stop h => exact .inl ⟨p, .stop h, hp.symm⟩
  | @step _ _ _ _ _ _ _ es t h hs hr ih =>
    subst hp
    obtain ⟨p', hs', rfl⟩ | ⟨r, rfl, hs'⟩ := hs.bind_cases
    · obtain ⟨p'', hr', rfl⟩ | ⟨r, t₁, t₂, a₁, rfl, h₁, h₂⟩ := ih rfl
      · exact .inl ⟨p'', .step h hs' hr', rfl⟩
      · exact .inr ⟨r, es ++ t₁, t₂, a₁, (List.append_assoc ..).symm, .step h hs' h₁, h₂⟩
    · exact .inr ⟨r, [], es ++ t, _, rfl, .stop h, .step (R.refl _) hs' hr⟩

/-- A finished run of a program and what follows it, taken apart. -/
theorem bind_done {p : Program α} {f : α → Program β} {x : β} {a b : Account} {t : List Event}
    (h : Run R (p.bind f) a t (.done x) b) :
    ∃ r t₁ t₂ a₁, t = t₁ ++ t₂ ∧ Run R p a t₁ (.done r) a₁ ∧ Run R (f r) a₁ t₂ (.done x) b := by
  obtain ⟨p', hp, hx⟩ | h := h.bind_cases
  · obtain ⟨r, rfl, hr⟩ := exists_of_bind_eq_done hx.symm
    exact ⟨r, t, [], b, by simp, hp, hr ▸ .refl _ _⟩
  · exact h

end Run

end Program

end Telebridge
