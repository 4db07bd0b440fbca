import Telebridge.Proofs.Program.Conduct
set_option autoImplicit false

/-! # What holds of every run

`Program.Safe R env spec Q p t a` says of all runs of `p` from the account `a` after the history `t`,
finished or not: as long as the events are such as `env` admits, they are such as `spec` demands, and
if the run is finished, `Q` holds of its answer, its whole history and its account. There is one rule
for each way to build a program; a loop needs an invariant (`Safe.iterate`). -/

namespace Telebridge

/-- Which events can come next after a history. -/
abbrev Environment := List Event → Event → Prop

/-- Every event of the second history is admitted after what stands before it. -/
def Environment.Allows (env : Environment) : List Event → List Event → Prop
  | _, [] => True
  | t, e :: es => env t e ∧ env.Allows (t ++ [e]) es

namespace Environment

variable {env : Environment}

@[simp] theorem allows_nil (t : List Event) : env.Allows t [] := trivial

@[simp] theorem allows_singleton (t : List Event) (e : Event) : env.Allows t [e] ↔ env t e := by
  simp [Allows]

theorem allows_append (t es fs : List Event) :
    env.Allows t (es ++ fs) ↔ env.Allows t es ∧ env.Allows (t ++ es) fs := by
  induction es generalizing t with
  | nil => simp
  | cons e es ih => simp [Allows, ih, and_assoc]

/-- Every single event of an admitted history is admitted where it stands. -/
theorem Allows.at {t es fs : List Event} {e : Event} (h : env.Allows t (es ++ e :: fs)) :
    env (t ++ es) e := by
  rw [allows_append] at h
  exact h.2.1

/-- What holds of every event that is ever admitted holds of the events of an admitted history. -/
theorem Allows.forall {heard : Event → Prop} {t es : List Event} (h : env.Allows t es)
    (hheard : ∀ t e, env t e → heard e) : ∀ e ∈ es, heard e := by
  intro e he
  obtain ⟨u, v, rfl⟩ := List.append_of_mem he
  exact hheard _ _ h.at

/-- A history is admitted if every event is, after whatever comes before it. -/
theorem allows_of_forall {t es : List Event}
    (h : ∀ us e vs, es = us ++ e :: vs → env (t ++ us) e) : env.Allows t es := by
  induction es generalizing t with
  | nil => trivial
  | cons e es ih =>
    refine ⟨by simpa using h [] e es rfl, ih fun us f vs hes => ?_⟩
    simpa using h (e :: us) f vs (by rw [hes]; rfl)

/-- A history is admitted if each of its events always is. -/
theorem allows_of_forall_mem {t es : List Event} (h : ∀ e ∈ es, ∀ t, env t e) : env.Allows t es :=
  allows_of_forall fun us e _ hes => h e (hes ▸ List.mem_append_right us List.mem_cons_self) _

/-- The environment in which anything can happen. -/
def anything : Environment := fun _ _ => True

theorem anything_allows (t es : List Event) : anything.Allows t es := by
  induction es generalizing t with
  | nil => trivial
  | cons e es ih => exact ⟨trivial, ih _⟩

end Environment

namespace Program

variable {R : Others} {env spec : Environment} {α β σ : Type}

/-- What holds of every run; see the beginning of the module. -/
def Safe (R : Others) (env spec : Environment) (Q : α → List Event → Account → Prop)
    (p : Program α) (t : List Event) (a : Account) : Prop :=
  ∀ es q b, Run R p a es q b → env.Allows t es →
    spec.Allows t es ∧ ∀ r, q = .done r → Q r (t ++ es) b

/-- What holds at the end of a turn of a loop: an invariant of the next state, or `Q` of the answer. -/
def EndOfTurn (I : σ → List Event → Account → Prop) (Q : β → List Event → Account → Prop) :
    σ ⊕ β → List Event → Account → Prop
  | .inl s => I s
  | .inr b => Q b

namespace Safe

variable {Q P : α → List Event → Account → Prop} {t : List Event} {a : Account}

theorem done {r : α} (h : ∀ b, R.may a b → Q r t b) : Safe R env spec Q (.done r) t a := by
  intro es q b hrun _
  obtain ⟨rfl, rfl, hb⟩ := hrun.done_inv
  refine ⟨trivial, fun r' hr => ?_⟩
  cases hr
  simpa using h b hb

theorem mono {p : Program α} (h : Safe R env spec Q p t a)
    (hQ : ∀ r t b, Q r t b → P r t b) : Safe R env spec P p t a := by
  intro es q b hrun henv
  obtain ⟨hs, hq⟩ := h es q b hrun henv
  exact ⟨hs, fun r hr => hQ _ _ _ (hq r hr)⟩

/-- What holds of every run still holds after the others have done something. -/
theorem after_others {p : Program α} {b : Account} (h : Safe R env spec Q p t a)
    (hb : R.may a b) : Safe R env spec Q p t b :=
  fun es q c hrun henv => h es q c (hrun.after_others hb) henv

/-- What holds of every run holds of the rest of it after a step. -/
theorem after_step {p q : Program α} {a' : Account} {es : List Event}
    (h : Safe R env spec Q p t a) (hs : Step R p a es q a') (henv : env.Allows t es) :
    Safe R env spec Q q (t ++ es) a' := by
  intro fs r b hrun henv'
  have hrun' := (Run.single hs).append hrun
  obtain ⟨hspec, hq⟩ := h _ _ _ hrun' ((Environment.allows_append ..).2 ⟨henv, henv'⟩)
  rw [Environment.allows_append] at hspec
  exact ⟨hspec.2, by simpa using hq⟩

theorem bind {p : Program α} {f : α → Program β} {Q : β → List Event → Account → Prop}
    (hp : Safe R env spec P p t a)
    (hf : ∀ r t' a', P r t' a' → Safe R env spec Q (f r) t' a') :
    Safe R env spec Q (p >>= f) t a := by
  intro es q b hrun henv
  obtain ⟨p', hp', rfl⟩ | ⟨r, es₁, es₂, a₁, rfl, h₁, h₂⟩ := hrun.bind_cases
  · obtain ⟨hs, hq⟩ := hp es p' b hp' henv
    refine ⟨hs, fun r hr => ?_⟩
    obtain ⟨x, rfl, hx⟩ := exists_of_bind_eq_done hr
    simpa using (hf x _ _ (hq x rfl) [] _ b (hx ▸ .refl _ b) trivial).2 r rfl
  · rw [Environment.allows_append] at henv
    obtain ⟨hs₁, hq₁⟩ := hp es₁ _ a₁ h₁ henv.1
    obtain ⟨hs₂, hq₂⟩ := hf r _ _ (hq₁ r rfl) es₂ q b h₂ henv.2
    exact ⟨(Environment.allows_append ..).2 ⟨hs₁, hs₂⟩, by simpa using hq₂⟩

/-! ## Actions -/

theorem act {x : Action β} {k : β → Program α}
    (h : ∀ a₁ es b a', R.may a a₁ → x.Leads R a₁ es b a' → env.Allows t es →
      spec.Allows t es ∧ Safe R env spec Q (k b) (t ++ es) a') :
    Safe R env spec Q (.act x k) t a := by
  intro es q c hrun henv
  cases hrun with
  | stop _ => exact ⟨trivial, fun r hr => by cases hr⟩
  | @step _ _ _ _ a₁ a₂ _ es₁ es₂ ha hs hrun =>
    obtain ⟨b, hx, rfl⟩ := hs
    rw [Environment.allows_append] at henv
    obtain ⟨hspec, hk⟩ := h a₁ es₁ b a₂ ha hx henv.1
    obtain ⟨hspec', hq⟩ := hk es₂ q c hrun henv.2
    exact ⟨(Environment.allows_append ..).2 ⟨hspec, hspec'⟩, by simpa using hq⟩

theorem external {e : External β} {k : β → Program α}
    (h : ∀ b a', R.may a a' → env t (.answered e b) →
      spec t (.answered e b) ∧ Safe R env spec Q (k b) (t ++ [.answered e b]) a') :
    Safe R env spec Q (Program.external e >>= k) t a := by
  refine act ?_
  rintro a₁ _ b _ ha ⟨rfl, rfl⟩ henv
  simpa using h b _ ha (by simpa using henv)

theorem read {f : Account → β} {k : β → Program α}
    (h : ∀ a', R.may a a' → Safe R env spec Q (k (f a')) t a') :
    Safe R env spec Q (Program.read f >>= k) t a := by
  refine act ?_
  rintro a₁ _ b a' ha ⟨rfl, hb⟩ _
  simp only [Option.some.injEq, Prod.mk.injEq] at hb
  obtain ⟨rfl, rfl⟩ := hb
  simpa using h _ ha

theorem update {f : Account → Account} {k : Unit → Program α}
    (h : ∀ a', R.may a a' → Safe R env spec Q (k ()) t (f a')) :
    Safe R env spec Q (Program.update f >>= k) t a := by
  refine act ?_
  rintro a₁ _ b a' ha ⟨rfl, hb⟩ _
  simp only [Option.some.injEq, Prod.mk.injEq] at hb
  obtain ⟨-, rfl⟩ := hb
  simpa using h _ ha

theorem await {f : Account → Option (β × Account)} {k : β → Program α}
    (h : ∀ a₁ b a', R.may a a₁ → f a₁ = some (b, a') → Safe R env spec Q (k b) t a') :
    Safe R env spec Q (Program.await f >>= k) t a := by
  refine act ?_
  rintro a₁ _ b a' ha ⟨rfl, hb⟩ _
  simpa using h a₁ b a' ha hb

theorem pause {ms : Nat} {k : Pause → Program α}
    (h : ∀ how a', R.may a a' → env t (.paused ms how) →
      spec t (.paused ms how) ∧ Safe R env spec Q (k how) (t ++ [.paused ms how]) a') :
    Safe R env spec Q (Program.pause ms >>= k) t a := by
  refine act ?_
  rintro a₁ _ b _ ha ⟨rfl, rfl⟩ henv
  simpa using h b _ ha (by simpa using henv)

theorem dispatch {updates : Updates} {k : Except InboundError Unit → Program α}
    (h : ∀ o a', R.may a a' → env t (.dispatched updates o) →
      spec t (.dispatched updates o) ∧
        Safe R env spec Q (k o) (t ++ [.dispatched updates o]) a') :
    Safe R env spec Q (Program.perform (.dispatch updates) >>= k) t a := by
  refine act ?_
  rintro a₁ _ b a' ha ⟨rfl, hb⟩ henv
  simpa using h b _ (R.trans ha hb) (by simpa using henv)

/-! ## Composite programs -/

theorem currentProfile {f : Profile → Program α}
    (h : ∀ profile a₁ a', R.may a a₁ → R.may a₁ a' →
      env t (.answered (.profile a₁.profile) profile) →
      spec t (.answered (.profile a₁.profile) profile) ∧
        Safe R env spec Q (f profile) (t ++ [.answered (.profile a₁.profile) profile]) a') :
    Safe R env spec Q (Program.currentProfile >>= f) t a := by
  show Safe R env spec Q (Program.read Account.profile >>= fun id =>
    Program.external (.profile id) >>= f) t a
  refine read fun a₁ ha₁ => ?_
  exact external fun profile a' ha' henv => h profile a₁ a' ha₁ ha' henv

/-- A step of the login begins with the login flow as it is, and what it leaves is put back, if the
others keep away from the login. -/
theorem withLogin {step : LoginFlow → Program (β × LoginFlow)} {flow : LoginFlow}
    {Q : β → LoginFlow → List Event → Prop} (hR : ∀ a b, R.may a b → b.login = a.login)
    (ha : a.login = .free flow)
    (hstep : ∀ a, Safe R env spec (fun r t _ => Q r.1 r.2 t) (step flow) t a) :
    Safe R env spec (fun r t b => ∃ flow', b.login = .free flow' ∧ Q r flow' t)
      (Program.withLogin step) t a := by
  refine await fun a₁ taken a' ha₁ htake => ?_
  have hfree : a₁.login = .free flow := (hR a a₁ ha₁).trans ha
  simp only [hfree, Option.some.injEq, Prod.mk.injEq] at htake
  obtain ⟨rfl, rfl⟩ := htake
  refine bind (hstep _) fun r t' a₂ hr => ?_
  refine update fun a₃ _ => done fun b hb => ?_
  exact ⟨r.2, hR _ b hb, hr⟩

/-- A loop from within a turn on, if its turns keep an invariant `K`. -/
theorem iterate_within {body : σ → Program (σ ⊕ β)} {K : σ ⊕ β → List Event → Account → Prop}
    (hbody : ∀ s t a, K (.inl s) t a → Safe R env spec K (body s) t a)
    {p q : Program β} {a b : Account} {es : List Event} (hrun : Run R p a es q b) :
    ∀ r t, p = r.bind (afterTurn body .done) → Safe R env spec K r t a → env.Allows t es →
      spec.Allows t es ∧ ∀ x, q = .done x → K (.inr x) (t ++ es) b := by
  induction hrun with
  | @stop _ _ b hb =>
    rintro r t rfl hr _
    refine ⟨trivial, fun x hx => ?_⟩
    obtain ⟨o, rfl, ho⟩ := exists_of_bind_eq_done hx
    cases o with
    | inl s => cases ho
    | inr y =>
      cases ho
      exact (hr [] _ b (.stop hb) trivial).2 _ rfl
  | @step _ _ _ _ _ a₂ _ es _ ha hs _ ih =>
    rintro r t rfl hr henv
    rw [Environment.allows_append] at henv
    obtain ⟨r', hs', rfl⟩ | ⟨o, rfl, hs'⟩ := hs.bind_cases
    · have hr' := hr.after_others ha
      have hspec := (hr' es _ _ (.single hs') henv.1).1
      obtain ⟨hspec', hq⟩ := ih r' (t ++ es) rfl (hr'.after_step hs' henv.1) henv.2
      exact ⟨(Environment.allows_append ..).2 ⟨hspec, hspec'⟩, by simpa using hq⟩
    · cases o with
      | inr y => exact hs'.elim
      | inl s =>
        -- the next turn begins, with the invariant as the last one left it
        obtain ⟨rfl, rfl, rfl⟩ := hs'
        have hK := (hr [] _ a₂ (.stop ha) trivial).2 _ rfl
        rw [List.append_nil] at hK
        simpa using ih (body s) t (unroll_eq ..) (hbody s t _ hK) (by simpa using henv.2)

/-- A loop is safe if its turns keep an invariant and the last one leads to `Q`. -/
theorem iterate {s : σ} {body : σ → Program (σ ⊕ β)} {Q : β → List Event → Account → Prop}
    (I : σ → List Event → Account → Prop)
    (hbody : ∀ s t a, I s t a → Safe R env spec (EndOfTurn I Q) (body s) t a)
    (h : I s t a) : Safe R env spec Q (Program.iterate s body) t a := by
  intro es q b hrun henv
  cases hrun with
  | stop _ => exact ⟨trivial, fun x hx => by cases hx⟩
  | @step _ _ _ _ a₁ a₂ _ _ fs ha hs hrun =>
    obtain ⟨rfl, rfl, rfl⟩ := hs
    exact iterate_within hbody hrun (body s) t (unroll_eq ..) ((hbody s t a h).after_others ha)
      henv

/-- A program whose events are harmless where they stand is safe: they keep `J`, and so do the
others. -/
theorem of_conforms {G : Others} {heard shown : Event → Prop} {p : Program α}
    (J : List Event → Account → Prop) (hR : ∀ a b, R.may a b → G.may a b)
    (hp : p.Conforms R G heard shown) (hheard : ∀ t e, env t e → heard e)
    (hshown : ∀ t a e, J t a → env t e → shown e → spec t e ∧ J (t ++ [e]) a)
    (hG : ∀ t a b, J t a → G.may a b → J t b) (h : J t a) :
    Safe R env spec (fun _ t a => J t a) p t a := by
  have key (es : List Event) (t : List Event) (h : J t a) (henv : env.Allows t es)
      (hes : ∀ e ∈ es, shown e) : spec.Allows t es ∧ J (t ++ es) a := by
    induction es generalizing t with
    | nil => simpa using h
    | cons e es ih =>
      obtain ⟨hspec, hJ⟩ := hshown t a e h henv.1 (hes e (by simp))
      obtain ⟨hspec', hJ'⟩ := ih _ hJ henv.2 fun e he => hes e (by simp [he])
      exact ⟨⟨hspec, hspec'⟩, by simpa using hJ'⟩
  intro es q b hrun henv
  obtain ⟨hab, hes, -⟩ := hrun.conforms hR hp (henv.forall hheard)
  obtain ⟨hspec, hJ⟩ := key es t h henv hes
  exact ⟨hspec, fun _ _ => hG _ _ _ hJ hab⟩

/-- A program is safe if it may always show what it shows, and `Q` holds of all its finished runs. -/
theorem of_runs {G : Others} {shown : Event → Prop} {p : Program α}
    (hR : ∀ a b, R.may a b → G.may a b) (hp : p.Conforms R G (fun _ => True) shown)
    (hspec : ∀ es e, (∀ f ∈ es, shown f) → shown e → spec (t ++ es) e)
    (hQ : ∀ es r b, Run R p a es (.done r) b → env.Allows t es → G.may a b →
      (∀ e ∈ es, shown e) → Q r (t ++ es) b) :
    Safe R env spec Q p t a := by
  intro es q b hrun henv
  obtain ⟨hab, hes, -⟩ := hrun.conforms hR hp fun _ _ => trivial
  refine ⟨Environment.allows_of_forall fun us e vs h => ?_, ?_⟩
  · subst h
    exact hspec us e (fun f hf => hes f (List.mem_append_left _ hf)) (hes e (by simp))
  · rintro r rfl
    exact hQ es r b hrun henv hab hes

end Safe

end Program

end Telebridge
