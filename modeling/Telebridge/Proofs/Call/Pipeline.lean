import Telebridge.Call.Pipeline
import Telebridge.Proofs.Program.Return
import Telebridge.Proofs.Program.Turns
set_option autoImplicit false

/-! # Calls in runs

What a call shows, what it does to the account, and what it gives, for every answer of the server:
`Pipeline.Exchange`, `Pipeline.learn` and `Pipeline.outcome`. From these follow the rules for calls,
one for each of the ways to speak about programs. -/

namespace Telebridge

namespace Pipeline

/-- The updates in an answer. -/
def updates? : Except CallError Reply → Option Updates
  | .error _ => none
  | .ok reply => reply.value? .updates

/-- What an answer does to the account. -/
def learn (request : Request) (answer : Except CallError Reply) (a : Account) : Account :=
  match answer with
  | .error e => if e.isUnauthorized then { a with signal := a.signal.reset.2 } else a
  | .ok reply => { a with peers := absorb request reply a.peers }

/-- What the caller gets. -/
def outcome (request : Request) :
    Except CallError Reply → Except CallError request.expected.Value
  | .error e => .error e
  | .ok reply =>
    match reply.value? request.expected with
    | some v => .ok v
    | none => .error (.unexpectedResult request.method reply.kind.name)

/-- The events of a call with a given answer: the answer, and the updates in it if there are any. -/
def Exchange (request : Request) (answer : Except CallError Reply) (es : List Event) : Prop :=
  match updates? answer with
  | none => es = [.answered (.call request) answer]
  | some updates => ∃ o, es = [.answered (.call request) answer, .dispatched updates o]

@[simp] theorem learn_config (request : Request) (answer : Except CallError Reply) (a : Account) :
    (learn request answer a).config = a.config := by
  cases answer with
  | error e => simp only [learn]; split <;> rfl
  | ok reply => rfl

@[simp] theorem learn_profile (request : Request) (answer : Except CallError Reply) (a : Account) :
    (learn request answer a).profile = a.profile := by
  cases answer with
  | error e => simp only [learn]; split <;> rfl
  | ok reply => rfl

@[simp] theorem learn_login (request : Request) (answer : Except CallError Reply) (a : Account) :
    (learn request answer a).login = a.login := by
  cases answer with
  | error e => simp only [learn]; split <;> rfl
  | ok reply => rfl

@[simp] theorem learn_run (request : Request) (answer : Except CallError Reply) (a : Account) :
    (learn request answer a).run = a.run := by
  cases answer with
  | error e => simp only [learn]; split <;> rfl
  | ok reply => rfl

/-- What the directory learns depends on nothing else of the account. -/
theorem learn_peers_congr (request : Request) (answer : Except CallError Reply) {a b : Account}
    (h : b.peers = a.peers) : (learn request answer b).peers = (learn request answer a).peers := by
  cases answer with
  | error e =>
    simp only [learn]
    split <;> exact h
  | ok reply => simp only [learn, h]

/-- What is done with an answer before the caller gets it. -/
def settle (request : Request) : Except CallError Reply → Program Unit
  | .error e =>
    if e.isUnauthorized then Program.update fun a => { a with signal := a.signal.reset.2 }
    else return ()
  | .ok reply => do
    Program.update fun a => { a with peers := absorb request reply a.peers }
    match reply.value? .updates with
    | some updates => let _ ← Program.perform (.dispatch updates)
    | none => return ()

/-- A call asks the server, settles the answer, and passes it on. -/
theorem call_bind {α : Type} (request : Request)
    (f : Except CallError request.expected.Value → Program α) :
    call request >>= f = Program.external (.call request) >>= fun b =>
      settle request b >>= fun _ => f (outcome request b) := by
  simp only [call, invoke, Program.bind_eq_bind, Program.bind_assoc]
  congr 1
  funext b
  cases b with
  | error e =>
    simp only [settle, outcome]
    split <;> rfl
  | ok reply =>
    simp only [settle, outcome, Program.bind_eq_bind, Program.bind_assoc]
    congr 1
    funext _
    cases reply.value? .updates with
    | none =>
      simp only [Program.pure_eq_done, Program.done_bind]
      cases reply.value? request.expected <;> rfl
    | some updates =>
      simp only [Program.pure_eq_done, Program.done_bind, Program.bind_assoc]
      congr 1
      funext _
      cases reply.value? request.expected <;> rfl

/-- In an admitted exchange the answer is admitted. -/
theorem Exchange.allowed {env : Environment} {request : Request} {answer : Except CallError Reply}
    {t es : List Event} (h : Exchange request answer es) (henv : env.Allows t es) :
    env t (.answered (.call request) answer) := by
  unfold Exchange at h
  split at h
  · subst h
    simpa using henv
  · obtain ⟨o, rfl⟩ := h
    exact henv.1

/-- Without updates there is only the answer. -/
theorem Exchange.eq {request : Request} {answer : Except CallError Reply} {es : List Event}
    (h : Exchange request answer es) (hu : updates? answer = none) :
    es = [.answered (.call request) answer] := by
  simpa only [Exchange, hu] using h

/-- There is nothing in an exchange but the answer and the handling of updates. -/
theorem Exchange.mem {request : Request} {answer : Except CallError Reply} {es : List Event}
    {e : Event} (h : Exchange request answer es) (he : e ∈ es) :
    e = .answered (.call request) answer ∨ ∃ updates o, e = .dispatched updates o := by
  unfold Exchange at h
  split at h
  · subst h
    exact .inl (List.mem_singleton.1 he)
  · obtain ⟨o, rfl⟩ := h
    rcases List.mem_cons.1 he with rfl | he
    · exact .inl rfl
    · exact .inr ⟨_, o, List.mem_singleton.1 he⟩

/-- The answer is part of the exchange. -/
theorem Exchange.answer_mem {request : Request} {answer : Except CallError Reply} {es : List Event}
    (h : Exchange request answer es) : .answered (.call request) answer ∈ es := by
  unfold Exchange at h
  split at h
  · subst h
    exact List.mem_singleton.2 rfl
  · obtain ⟨o, rfl⟩ := h
    exact List.mem_cons_self

/-- Every answer is part of an exchange. -/
theorem exists_exchange (request : Request) (answer : Except CallError Reply) :
    ∃ es, Exchange request answer (.answered (.call request) answer :: es) := by
  cases hu : updates? answer with
  | none =>
    refine ⟨[], ?_⟩
    simp only [Exchange, hu]
  | some updates =>
    refine ⟨[.dispatched updates (.ok ())], ?_⟩
    simp only [Exchange, hu]
    exact ⟨_, rfl⟩

/-- An exchange is admitted if its answer is, and the handling of updates is at any time. -/
theorem Exchange.allows {env : Environment} {request : Request} {answer : Except CallError Reply}
    {t es : List Event} (h : Exchange request answer es)
    (ha : env t (.answered (.call request) answer))
    (hd : ∀ t updates o, env t (.dispatched updates o)) : env.Allows t es := by
  unfold Exchange at h
  split at h
  · subst h
    exact ⟨ha, trivial⟩
  · obtain ⟨o, rfl⟩ := h
    exact ⟨ha, hd _ _ _, trivial⟩

/-- A reply of the promised kind gives its value. -/
theorem outcome_ok {request : Request} {reply : Reply} {v : request.expected.Value}
    (h : reply.value? request.expected = some v) : outcome request (.ok reply) = .ok v := by
  simp only [outcome, h]

/-- A reply of another kind than promised is an error. -/
theorem outcome_mismatched {request : Request} {reply : Reply}
    (h : reply.value? request.expected = none) :
    outcome request (.ok reply) = .error (.unexpectedResult request.method reply.kind.name) := by
  simp only [outcome, h]

/-- A value that the caller gets is all that the reply holds. -/
theorem eq_of_outcome_ok {request : Request} {reply : Reply} {v : request.expected.Value}
    (h : outcome request (.ok reply) = .ok v) : reply = ⟨request.expected, v⟩ := by
  obtain ⟨kind, value⟩ := reply
  simp only [outcome, Reply.value?] at h
  by_cases hkind : kind = request.expected
  · subst hkind
    simp only [dite_true] at h
    rw [Except.ok.inj h]
  · simp only [hkind, dite_false] at h
    cases h

/-- The caller gets the value of a reply, if it has the promised kind. -/
theorem toOption_outcome (request : Request) (answer : Except CallError Reply) :
    (outcome request answer).toOption = answer.toOption.bind (Reply.value? request.expected) := by
  cases answer with
  | error e => rfl
  | ok reply =>
    show _ = reply.value? request.expected
    simp only [outcome]
    cases reply.value? request.expected <;> rfl

end Pipeline

open Pipeline

variable {R G : Others} {env spec : Environment} {heard shown : Event → Prop} {α : Type}

/-- Settling an answer does to the account what `learn` says, and what the handling of updates does. -/
theorem Program.conforms_settle {request : Request} {b : Except CallError Reply}
    (hR : ∀ a b, R.may a b → G.may a b) (h : ∀ a, G.may a (learn request b a))
    (hd : ∀ updates o, shown (.dispatched updates o)) :
    Conforms R G heard shown (settle request b) := by
  cases b with
  | error e =>
    simp only [settle]
    split
    · next he => exact conforms_update fun a => by simpa only [learn, he, if_true] using h a
    · exact conforms_done _
  | ok reply =>
    refine Conforms.bind (conforms_update h) fun _ => ?_
    split
    · exact Conforms.bind (conforms_dispatch hR (hd _)) fun _ => conforms_done _
    · exact conforms_done _

/-- A call, and what is made of an answer that can be heard. -/
theorem Program.conforms_call_bind {request : Request}
    {f : Except CallError request.expected.Value → Program α}
    (hR : ∀ a b, R.may a b → G.may a b) (hd : ∀ updates o, shown (.dispatched updates o))
    (h : ∀ b, heard (.answered (.call request) b) → shown (.answered (.call request) b) ∧
      (∀ a, G.may a (learn request b a)) ∧ Conforms R G heard shown (f (outcome request b))) :
    Conforms R G heard shown (call request >>= f) := by
  rw [call_bind]
  refine conforms_external_bind fun b hb => ?_
  obtain ⟨hs, hl, hf⟩ := h b hb
  exact ⟨hs, (conforms_settle hR hl hd).bind fun _ => hf⟩

/-- A call, and what follows its answer. -/
theorem Program.Safe.call {request : Request}
    {f : Except CallError request.expected.Value → Program α}
    {Q : α → List Event → Account → Prop} {t : List Event} {a : Account}
    (hspec : ∀ b, env t (.answered (.call request) b) → spec t (.answered (.call request) b))
    (h : ∀ b es a₁ a', R.may a a₁ → R.may (learn request b a₁) a' → Exchange request b es →
      env.Allows t es → spec.Allows t es ∧
        Safe R env spec Q (f (outcome request b)) (t ++ es) a') :
    Safe R env spec Q (call request >>= f) t a := by
  rw [call_bind]
  refine Safe.external fun b a₁ ha henv => ⟨hspec b henv, ?_⟩
  have henv₁ : env.Allows t [.answered (.call request) b] := by simpa using henv
  cases b with
  | error e =>
    have h (a₂ a' : Account) (ha : R.may a a₂) (ha' : R.may (learn request (.error e) a₂) a') :=
      (h (.error e) _ a₂ a' ha ha' rfl henv₁).2
    by_cases he : e.isUnauthorized
    · simp only [settle, if_pos he]
      refine Safe.update fun a₂ ha₂ => h a₂ _ (R.trans ha ha₂) ?_
      simp only [learn, if_pos he]
      exact R.refl _
    · simp only [settle, if_neg he]
      refine h a₁ a₁ ha ?_
      simp only [learn, if_neg he]
      exact R.refl _
  | ok reply =>
    simp only [settle, Program.bind_eq_bind, Program.bind_assoc]
    refine Safe.update fun a₂ ha₂ => ?_
    have h := fun es a' ha' => h (.ok reply) es a₂ a' (R.trans ha ha₂) ha'
    cases hu : reply.value? .updates with
    | none => exact (h _ _ (R.refl _) (by simp only [Exchange, updates?, hu]) henv₁).2
    | some updates =>
      show Safe R env spec Q (Program.perform (.dispatch updates) >>= fun _ =>
        f (outcome request (.ok reply))) _ _
      refine Safe.dispatch fun o a' ha' henv' => ?_
      have hes : Exchange request (.ok reply)
          ([.answered (.call request) (.ok reply)] ++ [.dispatched updates o]) := by
        simp only [Exchange, updates?, hu]
        exact ⟨o, rfl⟩
      obtain ⟨hspec', hf⟩ := h _ a' ha' hes
        ((Environment.allows_append ..).2 ⟨henv₁, by simpa using henv'⟩)
      rw [Environment.allows_append] at hspec'
      exact ⟨by simpa using hspec'.2, by simpa using hf⟩

/-- A call, and what follows its answer, if that can be had. -/
theorem Program.Returns.call {request : Request}
    {f : Except CallError request.expected.Value → Program α}
    {Q : α → List Event → Account → Prop} {t : List Event} {a : Account}
    (can : ∃ b, env t (.answered (.call request) b))
    (handled : ∀ b updates, env t (.answered (.call request) b) → updates? b = some updates →
      ∃ o, env (t ++ [.answered (.call request) b]) (.dispatched updates o))
    (must : ∀ b es a₁ a', R.may a a₁ → R.may (learn request b a₁) a' → Exchange request b es →
      env.Allows t es → Returns R env Q (f (outcome request b)) (t ++ es) a') :
    Returns R env Q (call request >>= f) t a := by
  rw [call_bind]
  refine Returns.external can fun b a₁ ha henv => ?_
  have henv₁ : env.Allows t [.answered (.call request) b] := by simpa using henv
  cases b with
  | error e =>
    have h (a₂ a' : Account) (ha : R.may a a₂) (ha' : R.may (learn request (.error e) a₂) a') :=
      must (.error e) _ a₂ a' ha ha' rfl henv₁
    by_cases he : e.isUnauthorized
    · simp only [settle, if_pos he]
      refine Returns.update fun a₂ ha₂ => h a₂ _ (R.trans ha ha₂) ?_
      simp only [learn, if_pos he]
      exact R.refl _
    · simp only [settle, if_neg he]
      refine h a₁ a₁ ha ?_
      simp only [learn, if_neg he]
      exact R.refl _
  | ok reply =>
    simp only [settle, Program.bind_eq_bind, Program.bind_assoc]
    refine Returns.update fun a₂ ha₂ => ?_
    have h := fun es a' ha' => must (.ok reply) es a₂ a' (R.trans ha ha₂) ha'
    cases hu : reply.value? .updates with
    | none => exact h _ _ (R.refl _) (by simp only [Exchange, updates?, hu]) henv₁
    | some updates =>
      show Returns R env Q (Program.perform (.dispatch updates) >>= fun _ =>
        f (outcome request (.ok reply))) _ _
      refine Returns.dispatch (handled _ updates henv hu) fun o a' ha' henv' => ?_
      have hes : Exchange request (.ok reply)
          ([.answered (.call request) (.ok reply)] ++ [.dispatched updates o]) := by
        simp only [Exchange, updates?, hu]
        exact ⟨o, rfl⟩
      simpa using h _ a' ha' hes
        ((Environment.allows_append ..).2 ⟨henv₁, by simpa using henv'⟩)

/-- An exchange with the server is a run of the call. -/
theorem Program.Run.of_exchange {request : Request} {answer : Except CallError Reply}
    {es : List Event} (a : Account) (h : Exchange request answer es) :
    Run R (call request) a es (.done (outcome request answer)) (learn request answer a) := by
  have hsettle : ∃ fs, es = [.answered (.call request) answer] ++ fs ∧
      Run R (settle request answer) a fs (.done ()) (learn request answer a) := by
    cases answer with
    | error e =>
      refine ⟨[], h, ?_⟩
      by_cases he : e.isUnauthorized
      · simp only [settle, learn, if_pos he]
        exact .of_await rfl
      · simp only [settle, learn, if_neg he]
        exact .refl _ a
    | ok reply =>
      have hlearn : Run R (Program.update fun a => { a with peers := absorb request reply a.peers })
          a [] (.done ()) (learn request (.ok reply) a) := .of_await rfl
      simp only [settle]
      cases hu : reply.value? .updates with
      | none => exact ⟨[], h.eq hu, hlearn.bind (.refl _ _)⟩
      | some updates =>
        simp only [Exchange, updates?, hu] at h
        obtain ⟨o, rfl⟩ := h
        have hdispatch : Run R (Program.perform (.dispatch updates)) (learn request (.ok reply) a)
            [.dispatched updates o] (.done o) (learn request (.ok reply) a) :=
          .single ⟨o, ⟨rfl, R.refl _⟩, rfl⟩
        exact ⟨[.dispatched updates o], rfl, hlearn.bind (hdispatch.bind (.refl _ _))⟩
  obtain ⟨fs, rfl, hfs⟩ := hsettle
  have hcall : call request >>= .done = Program.external (.call request) >>= fun b =>
      settle request b >>= fun _ => .done (outcome request b) := call_bind request .done
  rw [Program.bind_eq_bind, Program.bind_done] at hcall
  rw [hcall]
  have hrest : Run R (settle request answer >>= fun _ => .done (outcome request answer)) a (fs ++ [])
      (.done (outcome request answer)) (learn request answer a) := hfs.bind (.refl _ _)
  rw [List.append_nil] at hrest
  exact (Run.of_external (.call request) answer a).bind hrest

/-- A call whose reply brings no updates. -/
theorem Program.Run.of_call {request : Request} {reply : Reply} (a : Account)
    (h : reply.value? .updates = none) :
    Run R (call request) a [.answered (.call request) (.ok reply)]
      (.done (outcome request (.ok reply))) (learn request (.ok reply) a) :=
  .of_exchange a (by simp only [Exchange, updates?, h])

/-- A finished call, taken apart: an exchange with the server, which does to the account what can be
learnt from the answer. -/
theorem Program.Run.call_done {request : Request} {r : Except CallError request.expected.Value}
    {t : List Event} {a b : Account} (h : Run R (call request) a t (.done r) b) :
    ∃ answer a₁, Exchange request answer t ∧ r = outcome request answer ∧ R.may a a₁ ∧
      R.may (learn request answer a₁) b := by
  have hcall : call request >>= .done = Program.external (.call request) >>= fun b =>
      settle request b >>= fun _ => .done (outcome request b) := call_bind request .done
  rw [Program.bind_eq_bind, Program.bind_done] at hcall
  rw [hcall] at h
  obtain ⟨answer, t₁, t₂, a₁, rfl, hexternal, h₁⟩ := h.bind_done
  obtain ⟨_, t₃, t₄, a₂, rfl, hsettle, h₂⟩ := h₁.bind_done
  obtain ⟨rfl, ha₁⟩ := hexternal.external_done
  obtain ⟨rfl, hr, hb⟩ := h₂.done_inv
  cases hr
  rw [List.append_nil]
  cases answer with
  | error e =>
    simp only [settle] at hsettle
    split at hsettle
    · next he =>
      obtain ⟨rfl, a₃, ha₃, ha₂⟩ := hsettle.update_done
      refine ⟨.error e, a₃, rfl, rfl, R.trans ha₁ ha₃, ?_⟩
      simp only [learn, if_pos he]
      exact R.trans ha₂ hb
    · next he =>
      obtain ⟨rfl, -, ha₂⟩ := hsettle.done_inv
      refine ⟨.error e, a₁, rfl, rfl, ha₁, ?_⟩
      simp only [learn, if_neg he]
      exact R.trans ha₂ hb
  | ok reply =>
    obtain ⟨_, t₅, t₆, a₃, rfl, hupdate, h₃⟩ := hsettle.bind_done
    obtain ⟨rfl, a₄, ha₄, ha₃⟩ := hupdate.update_done
    have hhandled : Exchange request (.ok reply) (.answered (.call request) (.ok reply) :: t₆) ∧
        R.may a₃ a₂ := by
      cases hu : reply.value? .updates with
      | none =>
        simp only [hu] at h₃
        obtain ⟨rfl, -, ha₂⟩ := h₃.done_inv
        exact ⟨by simp only [Exchange, updates?, hu], ha₂⟩
      | some updates =>
        simp only [hu] at h₃
        obtain ⟨o, t₇, t₈, a₅, rfl, hdispatch, h₄⟩ := h₃.bind_done
        obtain ⟨rfl, ha₅⟩ := hdispatch.dispatch_done
        obtain ⟨rfl, -, ha₂⟩ := h₄.done_inv
        exact ⟨by simp only [Exchange, updates?, hu]; exact ⟨o, rfl⟩, R.trans ha₅ ha₂⟩
    exact ⟨.ok reply, a₄, hhandled.1, rfl, R.trans ha₁ ha₄, R.trans ha₃ (R.trans hhandled.2 hb)⟩

end Telebridge
