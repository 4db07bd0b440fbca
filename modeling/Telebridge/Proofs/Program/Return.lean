import Telebridge.Proofs.Program.Safety
set_option autoImplicit false

/-! # What is returned

`Program.Returns R env Q p t a` says that `p` comes to its end from the account `a` after the history
`t`, whatever it meets: as long as it is not done it can go on in a way that `env` admits, no way that
`env` admits goes on for ever, and at its end `Q` holds of its answer, its whole history and its
account. Unlike `Program.Safe` this promises an answer. A loop needs an invariant and a measure that
its turns decrease (`Returns.iterate`). -/

namespace Telebridge.Program

variable {R : Others} {env : Environment} {α β σ : Type}

/-- The program comes to its end, with `Q`; see the beginning of the module. -/
inductive Returns (R : Others) (env : Environment) {α : Type}
    (Q : α → List Event → Account → Prop) : Program α → List Event → Account → Prop
  | done {r : α} {t : List Event} {a : Account} (h : ∀ b, R.may a b → Q r t b) :
      Returns R env Q (.done r) t a
  | step {p : Program α} {t : List Event} {a : Account}
      (can : ∀ b, R.may a b → ∃ es q c, Step R p b es q c ∧ env.Allows t es)
      (must : ∀ b es q c, R.may a b → Step R p b es q c → env.Allows t es →
        Returns R env Q q (t ++ es) c) :
      Returns R env Q p t a

namespace Returns

variable {Q Q' : α → List Event → Account → Prop} {p : Program α} {t : List Event} {a : Account}

theorem mono (h : Returns R env Q p t a) (hQ : ∀ r t b, Q r t b → Q' r t b) :
    Returns R env Q' p t a := by
  induction h with
  | done h => exact .done fun b hb => hQ _ _ _ (h b hb)
  | step can _ ih => exact .step can ih

/-- What the others do first changes nothing. -/
theorem after_others {b : Account} (h : Returns R env Q p t a) (hb : R.may a b) :
    Returns R env Q p t b := by
  cases h with
  | done h => exact .done fun c hc => h c (R.trans hb hc)
  | step can must =>
    exact .step (fun c hc => can c (R.trans hb hc)) fun c es q d hc => must c es q d (R.trans hb hc)

/-- Wherever an admitted run stands, the rest of it comes to its end as well. -/
theorem after_run {q : Program α} {es : List Event} {b : Account} (h : Returns R env Q p t a)
    (hrun : Run R p a es q b) (henv : env.Allows t es) : Returns R env Q q (t ++ es) b := by
  induction hrun generalizing t with
  | stop hb => simpa using h.after_others hb
  | step ha hs _ ih =>
    rw [Environment.allows_append] at henv
    cases h with
    | done => exact hs.elim
    | step can must =>
      rw [← List.append_assoc]
      exact ih (must _ _ _ _ ha hs henv.1) henv.2

/-- What is returned is as promised. -/
theorem of_run {r : α} {es : List Event} {b : Account} (h : Returns R env Q p t a)
    (hrun : Run R p a es (.done r) b) (henv : env.Allows t es) : Q r (t ++ es) b := by
  cases h.after_run hrun henv with
  | done h => exact h b (R.refl b)
  | step can _ =>
    obtain ⟨_, _, _, hs, _⟩ := can b (R.refl b)
    exact hs.elim

/-- There is a run to the end. -/
theorem exists_run (h : Returns R env Q p t a) :
    ∃ es r b, Run R p a es (.done r) b ∧ env.Allows t es := by
  induction h with
  | @done r _ a _ => exact ⟨[], r, a, .refl _ a, trivial⟩
  | @step _ t a can _ ih =>
    obtain ⟨es, q, c, hs, henv⟩ := can a (R.refl a)
    obtain ⟨fs, r, b, hrun, henv'⟩ := ih a es q c (R.refl a) hs henv
    exact ⟨es ++ fs, r, b, .step (R.refl a) hs hrun, (Environment.allows_append ..).2 ⟨henv, henv'⟩⟩

/-- What is returned is returned by an admitted run. -/
theorem by_run (h : Returns R env Q p t a) :
    Returns R env (fun r t' b => ∃ es, t' = t ++ es ∧ Run R p a es (.done r) b ∧ env.Allows t es)
      p t a := by
  -- the induction carries along the run so far
  have key {p₀ : Program α} {t₀ es₀ : List Event} {a₀ : Account} (hrun : Run R p₀ a₀ es₀ p a)
      (henv : env.Allows t₀ es₀) (ht : t = t₀ ++ es₀) :
      Returns R env
        (fun r t' b => ∃ es, t' = t₀ ++ es ∧ Run R p₀ a₀ es (.done r) b ∧ env.Allows t₀ es) p t a := by
    induction h generalizing es₀ with
    | done h => exact .done fun b hb => ⟨es₀, ht, hrun.before_others hb, henv⟩
    | step can _ ih =>
      subst ht
      refine .step can fun b es q c hb hs henv' => ?_
      refine ih b es q c hb hs henv' ((hrun.before_others hb).append (.single hs)) ?_ ?_
      · exact (Environment.allows_append ..).2 ⟨henv, henv'⟩
      · rw [List.append_assoc]
  exact key (.refl p a) trivial (by simp)

/-- The history of a returned answer is an admitted one. -/
theorem allowed (h : Returns R env Q p t a) (ht : env.Allows [] t) :
    Returns R env (fun r t b => Q r t b ∧ env.Allows [] t) p t a := by
  induction h with
  | done h => exact .done fun b hb => ⟨h b hb, ht⟩
  | @step _ t _ can _ ih =>
    refine .step can fun b es q c hb hs henv => ih b es q c hb hs henv ?_
    exact (Environment.allows_append ..).2 ⟨ht, by simpa using henv⟩

/-- At its end a program has only added to the history. -/
theorem grows (h : Returns R env Q p t a) :
    Returns R env (fun r t' b => Q r t' b ∧ t <+: t') p t a := by
  -- the induction carries along that the history began with `t`
  have key {t₀ : List Event} (ht : t₀ <+: t) :
      Returns R env (fun r t' b => Q r t' b ∧ t₀ <+: t') p t a := by
    induction h with
    | done h => exact .done fun b hb => ⟨h b hb, ht⟩
    | step can _ ih =>
      refine .step can fun b es q c hb hs henv => ih b es q c hb hs henv ?_
      exact ht.trans (List.prefix_append _ _)
  exact key List.prefix_rfl

/-- What a program does to its account is also known when it has come to its end. -/
theorem keeps {G : Others} {shown : Event → Prop} {a₀ : Account}
    (hR : ∀ a b, R.may a b → G.may a b) (hp : p.Conforms R G (fun _ => True) shown)
    (h : Returns R env Q p t a) (ha : G.may a₀ a) :
    Returns R env (fun r t b => Q r t b ∧ G.may a₀ b) p t a := by
  induction h with
  | done h => exact .done fun b hb => ⟨h b hb, G.trans ha (hR _ _ hb)⟩
  | step can _ ih =>
    refine .step can fun b es q c hb hs henv => ?_
    obtain ⟨hG, -, hq⟩ := hs.conforms hp fun _ _ => trivial
    exact ih b es q c hb hs henv hq (G.trans ha (G.trans (hR _ _ hb) hG))

/-- What follows may rely on the answer of the first part also after the others have done something. -/
theorem bind_stable {f : α → Program β} {Q : β → List Event → Account → Prop}
    (hp : Returns R env Q' p t a)
    (hf : ∀ r t' a', (∀ b, R.may a' b → Q' r t' b) → Returns R env Q (f r) t' a') :
    Returns R env Q (p >>= f) t a := by
  induction hp with
  | done h => exact hf _ _ _ h
  | @step p t a can must ih =>
    have hp (r : α) : p ≠ .done r := by
      obtain ⟨_, _, _, hs, _⟩ := can a (R.refl a)
      exact hs.ne_done
    refine .step (fun b hb => ?_) fun b es q c hb hs henv => ?_
    · obtain ⟨es, q, c, hs, henv⟩ := can b hb
      exact ⟨es, q.bind f, c, hs.bind f, henv⟩
    · obtain ⟨p', hs', rfl⟩ | ⟨r, hr, _⟩ := Step.bind_cases hs
      · exact ih b es p' c hb hs' henv
      · exact absurd hr (hp r)

theorem bind {f : α → Program β} {Q : β → List Event → Account → Prop}
    (hp : Returns R env Q' p t a)
    (hf : ∀ r t' a', Q' r t' a' → Returns R env Q (f r) t' a') :
    Returns R env Q (p >>= f) t a :=
  hp.bind_stable fun r t' a' h => hf r t' a' (h a' (R.refl a'))

/-! ## Actions -/

theorem act {x : Action β} {k : β → Program α}
    (can : ∀ a₁, R.may a a₁ → ∃ es b a', x.Leads R a₁ es b a' ∧ env.Allows t es)
    (must : ∀ a₁ es b a', R.may a a₁ → x.Leads R a₁ es b a' → env.Allows t es →
      Returns R env Q (k b) (t ++ es) a') :
    Returns R env Q (.act x k) t a := by
  refine .step (fun b hb => ?_) fun b es q c hb hs henv => ?_
  · obtain ⟨es, r, a', hx, henv⟩ := can b hb
    exact ⟨es, k r, a', ⟨r, hx, rfl⟩, henv⟩
  · obtain ⟨r, hx, rfl⟩ := hs
    exact must b es r c hb hx henv

theorem external {e : External β} {k : β → Program α} (can : ∃ b, env t (.answered e b))
    (must : ∀ b a', R.may a a' → env t (.answered e b) →
      Returns R env Q (k b) (t ++ [.answered e b]) a') :
    Returns R env Q (Program.external e >>= k) t a := by
  refine act (fun a₁ _ => ?_) ?_
  · obtain ⟨b, hb⟩ := can
    exact ⟨[.answered e b], b, a₁, ⟨rfl, rfl⟩, by simpa using hb⟩
  · rintro a₁ _ b _ ha ⟨rfl, rfl⟩ henv
    exact must b _ ha (by simpa using henv)

/-- A single action of the surroundings. -/
theorem answer {e : External α} (can : ∃ b, env t (.answered e b))
    (must : ∀ b a', R.may a a' → env t (.answered e b) → Q b (t ++ [.answered e b]) a') :
    Returns R env Q (Program.external e) t a := by
  rw [← bind_done (Program.external e)]
  refine external can fun b a' ha' henv => .done fun c hc => ?_
  exact must b c (R.trans ha' hc) henv

theorem read {f : Account → β} {k : β → Program α}
    (h : ∀ a', R.may a a' → Returns R env Q (k (f a')) t a') :
    Returns R env Q (Program.read f >>= k) t a := by
  refine act (fun a₁ _ => ⟨[], f a₁, a₁, ⟨rfl, rfl⟩, trivial⟩) ?_
  rintro a₁ _ b a' ha ⟨rfl, hb⟩ _
  simp only [Option.some.injEq, Prod.mk.injEq] at hb
  obtain ⟨rfl, rfl⟩ := hb
  simpa using h _ ha

theorem update {f : Account → Account} {k : Unit → Program α}
    (h : ∀ a', R.may a a' → Returns R env Q (k ()) t (f a')) :
    Returns R env Q (Program.update f >>= k) t a := by
  refine act (fun a₁ _ => ⟨[], (), f a₁, ⟨rfl, rfl⟩, trivial⟩) ?_
  rintro a₁ _ b a' ha ⟨rfl, hb⟩ _
  simp only [Option.some.injEq, Prod.mk.injEq] at hb
  obtain ⟨-, rfl⟩ := hb
  simpa using h _ ha

theorem await {f : Account → Option (β × Account)} {k : β → Program α}
    (can : ∀ a₁, R.may a a₁ → ∃ b a', f a₁ = some (b, a'))
    (must : ∀ a₁ b a', R.may a a₁ → f a₁ = some (b, a') → Returns R env Q (k b) t a') :
    Returns R env Q (Program.await f >>= k) t a := by
  refine act (fun a₁ ha => ?_) ?_
  · obtain ⟨b, a', hb⟩ := can a₁ ha
    exact ⟨[], b, a', ⟨rfl, hb⟩, trivial⟩
  · rintro a₁ _ b a' ha ⟨rfl, hb⟩ _
    simpa using must a₁ b a' ha hb

theorem pause {ms : Nat} {k : Pause → Program α} (can : ∃ how, env t (.paused ms how))
    (must : ∀ how a', R.may a a' → env t (.paused ms how) →
      Returns R env Q (k how) (t ++ [.paused ms how]) a') :
    Returns R env Q (Program.pause ms >>= k) t a := by
  refine act (fun a₁ _ => ?_) ?_
  · obtain ⟨how, h⟩ := can
    exact ⟨[.paused ms how], how, a₁, ⟨rfl, rfl⟩, by simpa using h⟩
  · rintro a₁ _ how _ ha ⟨rfl, rfl⟩ henv
    exact must how _ ha (by simpa using henv)

theorem dispatch {updates : Updates} {k : Except InboundError Unit → Program α}
    (can : ∃ o, env t (.dispatched updates o))
    (must : ∀ o a', R.may a a' → env t (.dispatched updates o) →
      Returns R env Q (k o) (t ++ [.dispatched updates o]) a') :
    Returns R env Q (Program.perform (.dispatch updates) >>= k) t a := by
  refine act (fun a₁ _ => ?_) ?_
  · obtain ⟨o, h⟩ := can
    exact ⟨[.dispatched updates o], o, a₁, ⟨rfl, R.refl a₁⟩, by simpa using h⟩
  · rintro a₁ _ o a' ha ⟨rfl, ha'⟩ henv
    exact must o a' (R.trans ha ha') (by simpa using henv)

/-! ## Composite programs -/

/-- A step of the login that finds it free comes to its end, if the others keep away from the login. -/
theorem withLogin {step : LoginFlow → Program (β × LoginFlow)} {flow : LoginFlow}
    {Q : β → LoginFlow → List Event → Prop} (hR : ∀ a b, R.may a b → b.login = a.login)
    (ha : a.login = .free flow)
    (hstep : ∀ a, Returns R env (fun r t _ => Q r.1 r.2 t) (step flow) t a) :
    Returns R env (fun r t b => ∃ flow', b.login = .free flow' ∧ Q r flow' t)
      (Program.withLogin step) t a := by
  refine await (fun a₁ ha₁ => ?_) fun a₁ taken a' ha₁ htake => ?_
  · have hfree : a₁.login = .free flow := (hR a a₁ ha₁).trans ha
    exact ⟨flow, { a₁ with login := .taken }, by rw [hfree]⟩
  · have hfree : a₁.login = .free flow := (hR a a₁ ha₁).trans ha
    simp only [hfree, Option.some.injEq, Prod.mk.injEq] at htake
    obtain ⟨rfl, rfl⟩ := htake
    refine bind (hstep _) fun r t' a₂ hr => ?_
    refine update fun a₃ _ => done fun b hb => ?_
    exact ⟨r.2, hR _ b hb, hr⟩

/-- A loop comes to its end if a turn does, and after it the rest of the loop. -/
theorem turn {s : σ} {body : σ → Program (σ ⊕ β)} {Q : β → List Event → Account → Prop}
    (h : Returns R env (EndOfTurn (fun s => Returns R env Q (Program.iterate s body)) Q) (body s) t a) :
    Returns R env Q (Program.iterate s body) t a := by
  refine .step (fun b _ => ⟨[], _, b, ⟨rfl, rfl, rfl⟩, trivial⟩) ?_
  rintro b es q c hb ⟨rfl, rfl, rfl⟩ _
  rw [List.append_nil]
  refine bind_stable (h.after_others hb) ?_
  rintro (s' | b) t' a' hr
  · exact hr a' (R.refl a')
  · exact .done hr

/-- A loop comes to its end if its turns keep an invariant and decrease a measure, and the last one
leads to `Q`. -/
theorem iterate {s : σ} {body : σ → Program (σ ⊕ β)} {Q : β → List Event → Account → Prop}
    (I : Nat → σ → List Event → Account → Prop)
    (hbody : ∀ n s t a, I n s t a →
      Returns R env (EndOfTurn (fun s t a => ∃ m < n, I m s t a) Q) (body s) t a)
    {n : Nat} (h : I n s t a) : Returns R env Q (Program.iterate s body) t a := by
  induction n using Nat.strongRecOn generalizing s t a with
  | ind n ih =>
    refine turn ((hbody n s t a h).mono ?_)
    rintro (s' | b) t' a' hr
    · obtain ⟨m, hm, hI⟩ := hr
      exact ih m hm hI
    · exact hr

theorem currentProfile {f : Profile → Program α}
    (can : ∀ id, ∃ profile, env t (.answered (.profile id) profile))
    (must : ∀ profile a₁ a', R.may a a₁ → R.may a₁ a' →
      env t (.answered (.profile a₁.profile) profile) →
      Returns R env Q (f profile) (t ++ [.answered (.profile a₁.profile) profile]) a') :
    Returns R env Q (Program.currentProfile >>= f) t a := by
  show Returns R env Q (Program.read Account.profile >>= fun id =>
    Program.external (.profile id) >>= f) t a
  refine read fun a₁ ha₁ => ?_
  exact external (can a₁.profile) fun profile a' ha' henv => must profile a₁ a' ha₁ ha' henv

/-- Where the token is never cancelled, a program gives its answer. -/
theorem unlessCancelled {f : Option β → Program α} {p : Program β}
    {Q' : β → List Event → Account → Prop} (hc : ∀ t, ¬ env t .cancelled)
    (hp : Returns R env Q' p t a)
    (hf : ∀ r t' a', Q' r t' a' → Returns R env Q (f (some r)) t' a') :
    Returns R env Q (Program.unlessCancelled p >>= f) t a := by
  induction hp with
  | @done r t a h =>
    refine .step (fun b _ => ⟨[], _, b, .inr (.inr (.inr ⟨r, rfl, rfl, rfl, rfl⟩)), trivial⟩) ?_
    rintro b es q c hb hs henv
    obtain ⟨_, ⟨_, ⟨rfl, rfl⟩, rfl⟩, -⟩ | ⟨_, hs, -⟩ | ⟨_, hs, -⟩ | ⟨_, hs, rfl, rfl, rfl⟩ := hs
    · exact absurd (by simpa using henv) (hc t)
    · exact hs.elim
    · cases hs
    · cases hs
      simpa using (hf r t _ (h _ (R.refl _))).after_others hb
  | @step p t a can must ih =>
    refine .step (fun b hb => ?_) ?_
    · obtain ⟨es, q, c, hs, henv⟩ := can b hb
      exact ⟨es, _, c, .inr (.inl ⟨q, hs, rfl⟩), henv⟩
    · rintro b es q c hb hs henv
      obtain ⟨_, ⟨_, ⟨rfl, rfl⟩, rfl⟩, -⟩ | ⟨p', hs, rfl⟩ | ⟨_, hs, -⟩ | ⟨r, hs, rfl, rfl, rfl⟩ := hs
      · exact absurd (by simpa using henv) (hc t)
      · exact ih b es p' c hb hs henv
      · cases hs
      · obtain ⟨_, _, _, hs', _⟩ := can _ hb
        exact absurd hs hs'.ne_done

/-- A race of which one side is done comes to its end if the other side does. -/
theorem race_of_left {γ : Type} {x : γ} {p : Program β} {k : γ ⊕ β → Program α}
    {Q' : β → List Event → Account → Prop} (hp : Returns R env Q' p t a)
    (hleft : ∀ t' a', Returns R env Q (k (.inl x)) t' a')
    (hright : ∀ r t' a', Q' r t' a' → Returns R env Q (k (.inr r)) t' a') :
    Returns R env Q (.race (.done x) p k) t a := by
  have hfinish (p : Program β) (b : Account) : Step R (.race (.done x) p k) b [] (k (.inl x)) b :=
    .inr (.inr (.inl ⟨x, rfl, rfl, rfl, rfl⟩))
  induction hp with
  | @done r t a h =>
    refine .step (fun b _ => ⟨[], _, b, hfinish _ b, trivial⟩) ?_
    rintro b es q c hb hs -
    obtain ⟨_, hs, -⟩ | ⟨_, hs, -⟩ | ⟨_, hx, rfl, rfl, rfl⟩ | ⟨_, hr, rfl, rfl, rfl⟩ := hs
    · exact hs.elim
    · exact hs.elim
    · cases hx
      exact hleft _ _
    · cases hr
      rw [List.append_nil]
      exact (hright r t _ (h _ (R.refl _))).after_others hb
  | @step p t a can must ih =>
    refine .step (fun b _ => ⟨[], _, b, hfinish _ b, trivial⟩) ?_
    rintro b es q c hb hs henv
    obtain ⟨_, hs, -⟩ | ⟨p', hs, rfl⟩ | ⟨_, hx, rfl, rfl, rfl⟩ | ⟨_, hr, rfl, rfl, rfl⟩ := hs
    · exact hs.elim
    · exact ih b es p' c hb hs henv
    · cases hx
      exact hleft _ _
    · obtain ⟨_, _, _, hs', _⟩ := can _ hb
      exact absurd hr hs'.ne_done

/-- What is done gives its answer, unless the token is seen to be cancelled first. -/
theorem unlessCancelled_done {r : β} {f : Option β → Program α}
    (hnone : ∀ t' a', Returns R env Q (f none) t' a')
    (hsome : ∀ v a', (∀ e ∈ v, e = .cancelled) → R.may a a' →
      Returns R env Q (f (some r)) (t ++ v) a') :
    Returns R env Q (Program.unlessCancelled (.done r) >>= f) t a := by
  refine .step (fun b _ => ⟨[], _, b, .inr (.inr (.inr ⟨r, rfl, rfl, rfl, rfl⟩)), trivial⟩) ?_
  rintro b es q c hb hs -
  obtain ⟨_, ⟨_, ⟨rfl, rfl⟩, rfl⟩, rfl⟩ | ⟨_, hs, -⟩ | ⟨_, hs, -⟩ | ⟨_, hs, rfl, rfl, rfl⟩ := hs
  · have hdone : Returns R env (fun x t' a' => x = r ∧ t' = t ++ [.cancelled] ∧ R.may a a')
        (.done r) (t ++ [.cancelled]) c := .done fun d hd => ⟨rfl, rfl, R.trans hb hd⟩
    refine race_of_left hdone hnone ?_
    rintro _ _ a' ⟨rfl, rfl, ha'⟩
    exact hsome [.cancelled] a' (by simp) ha'
  · exact hs.elim
  · cases hs
  · cases hs
    exact hsome [] c (by simp) hb

/-- An action of the surroundings, after which there is nothing more to do, gives its answer, unless the
token is seen to be cancelled first. It may also be cancelled when the answer is there. -/
theorem unlessCancelled_external {γ : Type} {e : External γ} {g : γ → Program β}
    {f : Option β → Program α} (hg : ∀ x, ∃ r, g x = .done r)
    (can : ∀ t, ∃ x, env t (.answered e x))
    (hnone : ∀ t' a', Returns R env Q (f none) t' a')
    (hsome : ∀ u x v r a', (∀ e ∈ u ++ v, e = .cancelled) → env (t ++ u) (.answered e x) →
      g x = .done r → R.may a a' →
      Returns R env Q (f (some r)) (t ++ u ++ [.answered e x] ++ v) a') :
    Returns R env Q (Program.unlessCancelled (Program.external e >>= g) >>= f) t a := by
  refine .step (fun b _ => ?_) ?_
  · obtain ⟨x, hx⟩ := can t
    exact ⟨[.answered e x], _, b, .inr (.inl ⟨g x, ⟨x, ⟨rfl, rfl⟩, rfl⟩, rfl⟩), hx, trivial⟩
  rintro b es q c hb hs henv
  obtain ⟨_, ⟨_, ⟨rfl, rfl⟩, rfl⟩, rfl⟩ | ⟨_, ⟨x, ⟨rfl, rfl⟩, rfl⟩, rfl⟩ | ⟨_, hs, -⟩ | ⟨_, hs, -⟩ := hs
  · have hanswer : Returns R env
        (fun r t' a' => ∃ x, t' = t ++ [.cancelled] ++ [.answered e x] ∧
          env (t ++ [.cancelled]) (.answered e x) ∧ g x = .done r ∧ R.may a a')
        (Program.external e >>= g) (t ++ [.cancelled]) c := by
      refine external (can _) fun x d hd hx => ?_
      obtain ⟨r, hr⟩ := hg x
      rw [hr]
      exact .done fun a' ha' => ⟨x, rfl, hx, hr, R.trans hb (R.trans hd ha')⟩
    refine race_of_left hanswer hnone ?_
    rintro r _ a' ⟨x, rfl, hx, hr, ha'⟩
    have h := hsome [.cancelled] x [] r a' (by simp) hx hr ha'
    rwa [List.append_nil] at h
  · obtain ⟨r, hr⟩ := hg x
    simp only [done_bind, hr]
    show Returns R env Q (Program.unlessCancelled (.done r) >>= f) _ _
    refine unlessCancelled_done hnone fun v a' hv ha' => ?_
    have h := hsome [] x v r a' hv (by simpa using henv) hr (R.trans hb ha')
    rwa [List.append_nil] at h
  · cases hs
  · cases hs

end Returns

end Telebridge.Program
