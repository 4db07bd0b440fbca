import Telebridge.Proofs.Call.RetryCourse
set_option autoImplicit false

/-! # What comes of a repeated call

`Pipeline.Persists` says which calls a request makes under a retry policy, and what comes of them. It
says so of every run that has ended (`persists_of_run`), whatever the server answers and whoever cancels
the wait. Such a run always ends, unless policy and server go on for ever (`callWithRetry_ends`), and
on its way does what the policy says (`callWithRetry_keeps_policy`). -/

namespace Telebridge.Pipeline

open Program

variable {R : Others} {policy : RetryPolicy} {request : Request}

/-! ## The events of a repeated call -/

/-- The event can belong to a call of the request and its repetitions. -/
inductive Attempting (request : Request) : Event → Prop
  | answered (answer : Except CallError Reply) : Attempting request (.answered (.call request) answer)
  | dispatched (updates : Updates) (o : Except InboundError Unit) :
      Attempting request (.dispatched updates o)
  | paused (ms : Nat) (how : Pause) : Attempting request (.paused ms how)

theorem Attempting.request_eq {e : Event} {c : Call} (h : Attempting request e)
    (hc : call? e = some c) : c.1 = request := by
  cases h with
  | answered answer =>
    cases hc
    rfl
  | dispatched => cases hc
  | paused => cases hc

/-- A repeated call does nothing but learn from the answers. -/
theorem conforms_callWithRetry_learn {G : Others} (hR : ∀ a b, R.may a b → G.may a b)
    (hlearn : ∀ answer a, G.may a (learn request answer a)) :
    (callWithRetry policy request).Conforms R G (fun _ => True) (Attempting request) := by
  refine conforms_iterate fun f => conforms_call_bind hR (fun _ _ => .dispatched _ _) fun answer _ =>
    ⟨.answered answer, hlearn answer, ?_⟩
  split
  · exact conforms_done _
  · split
    · exact conforms_done _
    · refine Conforms.bind (conforms_pause fun how => .paused _ how) fun how => ?_
      cases how <;> exact conforms_done _

theorem conforms_callWithRetry (hR : ∀ a b, R.may a b → b.config = a.config) :
    (callWithRetry policy request).Conforms R .sameConfig (fun _ => True) (Attempting request) :=
  conforms_callWithRetry_learn hR fun _ a => learn_config _ _ a

theorem conforms_callPersistently (hR : ∀ a b, R.may a b → b.config = a.config) :
    (callPersistently request).Conforms R .sameConfig (fun _ => True) (Attempting request) :=
  conforms_read.bind fun _ => conforms_callWithRetry hR

/-! ## Calls and their outcome -/

/-- A request that is called as long as the policy says so: the calls, and what comes of them. The next
failure is the `n`-th. The last call is one that succeeds, one after which the policy gives up, or one
after which the wait is cancelled. -/
inductive Persists (policy : RetryPolicy) (request : Request) :
    Nat → List Call → Except CallError request.expected.Value → Prop
  | settled {n : Nat} {answer : Except CallError Reply}
      (h : ∀ e, outcome request answer = .error e → policy.delay? n e = none) :
      Persists policy request n [(request, answer)] (outcome request answer)
  | cancelled {n : Nat} {e : CallError} (h : (policy.delay? n e).isSome) :
      Persists policy request n [(request, .error e)] (.error .cancelled)
  | again {n : Nat} {e : CallError} {cs : List Call}
      {r : Except CallError request.expected.Value} (h : (policy.delay? n e).isSome)
      (hr : Persists policy request (RetryPolicy.nextFailure n) cs r) :
      Persists policy request n ((request, .error e) :: cs) r

/-- All calls are calls of the request. -/
theorem Persists.request_eq {n : Nat} {cs : List Call}
    {r : Except CallError request.expected.Value} (h : Persists policy request n cs r) :
    ∀ c ∈ cs, c.1 = request := by
  induction h with
  | settled => simp
  | cancelled => simp
  | again _ _ ih => exact List.forall_mem_cons.2 ⟨rfl, ih⟩

/-- There is at least one call. -/
theorem Persists.ne_nil {n : Nat} {cs : List Call} {r : Except CallError request.expected.Value}
    (h : Persists policy request n cs r) : cs ≠ [] := by
  cases h <;> exact List.cons_ne_nil _ _

/-- A call that succeeds has been refused some times and then answered. -/
theorem Persists.of_ok {n : Nat} {cs : List Call} {v : request.expected.Value}
    (h : Persists policy request n cs (.ok v)) :
    ∃ (es : List CallError) (reply : Reply),
      cs = es.map (fun e => (request, .error e)) ++ [(request, .ok reply)] := by
  generalize hr : Except.ok v = r at h
  induction h with
  | @settled n answer _ =>
    cases answer with
    | ok reply => exact ⟨[], reply, rfl⟩
    | error e => cases hr
  | cancelled => cases hr
  | again _ _ ih =>
    obtain ⟨es, reply, rfl⟩ := ih hr
    exact ⟨_ :: es, reply, rfl⟩

/-- One more request has been transmitted when its call has succeeded. -/
theorem Transmits.persists {requests : List Request} {cs cs' : List Call} {n : Nat}
    {v : request.expected.Value} (h : Transmits requests cs)
    (h' : Persists policy request n cs' (.ok v)) : Transmits (requests ++ [request]) (cs ++ cs') := by
  obtain ⟨es, reply, rfl⟩ := h'.of_ok
  rw [← List.append_assoc]
  exact .snoc es h

/-- What has come of a repeated call has come of its calls. -/
theorem Course.persists {n : Nat} {t : List Event} {r : Except CallError request.expected.Value}
    (h : Course policy request n t (some r)) : Persists policy request n (calls t) r := by
  generalize ho : some r = o at h
  induction h with
  | underWay => cases ho
  | @succeeded n reply v es hes hv =>
    obtain rfl := Option.some.inj ho
    rw [hes.calls_eq, ← outcome_ok hv]
    refine .settled fun e he => ?_
    rw [outcome_ok hv] at he
    cases he
  | @mismatched n reply es hes hv =>
    obtain rfl := Option.some.inj ho
    rw [hes.calls_eq, ← outcome_mismatched hv]
    refine .settled fun e he => ?_
    rw [outcome_mismatched hv] at he
    obtain rfl := Except.error.inj he
    exact RetryPolicy.delay?_eq_none_iff.2 fun ms => RetryPolicy.not_retries_unexpectedResult
  | @refused n e he =>
    obtain rfl := Option.some.inj ho
    have hsettled : ∀ e', outcome request (.error e) = .error e' → policy.delay? n e' = none := by
      rintro e' ⟨⟩
      exact RetryPolicy.delay?_eq_none_iff.2 he
    exact .settled hsettled
  | cancelled he =>
    obtain rfl := Option.some.inj ho
    exact .cancelled (by simp [he.delay?_eq])
  | again he _ ih => exact .again (by simp [he.delay?_eq]) (ih ho)

/-- What a run of a repeated call has called when it has ended. -/
theorem persists_of_run {r : Except CallError request.expected.Value} {t : List Event}
    {a b : Account} (h : Run R (callWithRetry policy request) a t (.done r) b) :
    Persists policy request 1 (calls t) r := by
  obtain ⟨outcome, hcourse, hdone⟩ := course_of_run h
  obtain rfl := hdone r rfl
  exact hcourse.persists

/-- If the call has succeeded, its value was learnt from a reply, and since then only the others have
changed the account. -/
def Learnt (R : Others) (request : Request) (r : Except CallError request.expected.Value)
    (t : List Event) (b : Account) : Prop :=
  ∀ v, r = .ok v → ∃ reply x, (request, .ok reply) ∈ calls t ∧ outcome request (.ok reply) = .ok v ∧
    R.may (learn request (.ok reply) x) b

/-- What a repeated call returns was learnt. -/
theorem learnt_of_run {r : Except CallError request.expected.Value} {t : List Event} {a b : Account}
    (h : Run R (callWithRetry policy request) a t (.done r) b) : Learnt R request r t b := by
  have hsafe : Safe R Environment.anything Environment.anything (Learnt R request)
      (callWithRetry policy request) [] a := by
    refine Safe.iterate (fun _ _ _ => True) (fun n t a _ => ?_) trivial
    refine Safe.call (fun _ h => h) fun answer es a₁ a₂ _ ha₂ hes _ =>
      ⟨Environment.anything_allows _ _, ?_⟩
    have hfailed (e : CallError) (t : List Event) (b : Account) : Learnt R request (.error e) t b :=
      fun v hv => by cases hv
    cases ho : outcome request answer with
    | ok v =>
      cases answer with
      | error e => cases ho
      | ok reply =>
        refine Safe.done fun b hb v' hv => ?_
        cases hv
        have hmem : (request, Except.ok reply) ∈ calls (t ++ es) := by simp [hes.calls_eq]
        exact ⟨reply, a₁, hmem, ho, R.trans ha₂ hb⟩
    | error e =>
      cases hd : policy.delay? n e with
      | none =>
        simp only [hd]
        exact Safe.done fun b _ => hfailed e _ b
      | some ms =>
        simp only [hd]
        refine Safe.pause fun how a₃ _ _ => ⟨trivial, ?_⟩
        cases how with
        | elapsed => exact Safe.done fun _ _ => trivial
        | cancelled => exact Safe.done fun b _ => hfailed .cancelled _ b
  exact (hsafe t _ b h (Environment.anything_allows _ _)).2 r rfl

/-! ## Repeated calls come to an end -/

/-- The policy gives up at last: not even after the highest number of failures is there another call. -/
def GivesUp (policy : RetryPolicy) : Prop :=
  ∀ e, policy.delay? (UInt32.size - 1) e = none

/-- A failure that is followed by another call is not the last that is counted. -/
theorem GivesUp.lt {n ms : Nat} {e : CallError} (h : GivesUp policy) (hn : n < UInt32.size)
    (hd : policy.delay? n e = some ms) : n < UInt32.size - 1 := by
  refine Nat.lt_of_le_of_ne (Nat.le_sub_one_of_lt hn) ?_
  rintro rfl
  rw [h] at hd
  cases hd

theorem givesUp_attempts {n : Nat} (h : n < UInt32.size) : GivesUp (.attempts n) := by
  intro e
  rw [RetryPolicy.delay?, if_pos (Nat.le_sub_one_of_lt h)]

theorem givesUp_autoSleep {threshold maxRetries : Nat} {ioDelay : Option Nat}
    (h : maxRetries < UInt32.size - 1) : GivesUp (.autoSleep threshold ioDelay maxRetries) := by
  intro e
  rw [RetryPolicy.delay?, if_pos h]

example : GivesUp .standard :=
  givesUp_autoSleep (by decide)

/-- The surroundings in which anything can happen, unless the policy never gives up: then the server
refuses at most so many times. -/
def relenting (policy : RetryPolicy) (bound : Nat) : Environment := fun t e =>
  match e with
  | .answered (.call _) answer =>
    ∀ err, answer = .error err → GivesUp policy ∨ refusals (calls t) < bound
  | _ => True

/-- Surroundings that go on with a call whatever has happened: it can be answered, updates can be
handled, and time can pass. Unless the policy gives up, the server refuses at most so many times. -/
structure Relents (policy : RetryPolicy) (bound : Nat) (env : Environment) : Prop where
  answers : ∀ t request, env t (.answered (.call request) (.ok ⟨.bool, true⟩))
  handles : ∀ t updates, env t (.dispatched updates (.ok ()))
  elapses : ∀ t ms, env t (.paused ms .elapsed)
  refuses : ∀ t request err, env t (.answered (.call request) (.error err)) →
    GivesUp policy ∨ refusals (calls t) < bound

theorem relents_relenting (policy : RetryPolicy) (bound : Nat) :
    Relents policy bound (relenting policy bound) where
  answers _ _ := nofun
  handles _ _ := trivial
  elapses _ _ := trivial
  refuses _ _ err h := h err rfl

variable {bound : Nat} {env : Environment} {t : List Event} {a : Account}

/-- A call is answered. -/
theorem call_ends (henv : Relents policy bound env) :
    Returns R env (fun _ _ _ => True) (call request) t a := by
  have h : Returns R env (fun _ _ _ => True) (call request >>= .done) t a :=
    Returns.call ⟨_, henv.answers t request⟩ (fun _ updates _ _ => ⟨.ok (), henv.handles _ updates⟩)
      fun _ _ _ _ _ _ _ _ => .done fun _ _ => trivial
  rwa [bind_eq_bind, bind_done] at h

/-- A call is not repeated for ever. -/
theorem callWithRetry_ends {used : RetryPolicy} (henv : Relents policy bound env)
    (h : used = policy ∨ GivesUp used) :
    Returns R env (fun _ _ _ => True) (callWithRetry used request) t a := by
  -- every repetition brings the count of failures or that of refusals closer to its end
  refine Returns.iterate (fun n f t _ => f < UInt32.size ∧
    n = (UInt32.size - 1 - f) + (bound - refusals (calls t))) ?_ ⟨by decide, rfl⟩
  rintro n f t a ⟨hf, rfl⟩
  refine Returns.call ⟨_, henv.answers t request⟩
    (fun _ updates _ _ => ⟨.ok (), henv.handles _ updates⟩) ?_
  intro answer es a₁ a₂ _ _ hes hallowed
  cases ho : outcome request answer with
  | ok v => exact .done fun _ _ => trivial
  | error e =>
    cases hd : used.delay? f e with
    | none =>
      simp only [hd]
      exact .done fun _ _ => trivial
    | some ms =>
      simp only [hd]
      obtain rfl := outcome_error_eq ho hd
      refine Returns.pause ⟨.elapsed, henv.elapses _ ms⟩ fun how a₃ _ _ => ?_
      cases how with
      | cancelled => exact .done fun _ _ => trivial
      | elapsed =>
        have hcalls : calls (t ++ es ++ [.paused ms .elapsed]) = calls t ++ [(request, .error e)] := by
          rw [calls_append, calls_append, hes.calls_eq]
          exact List.append_nil _
        have hnext : RetryPolicy.nextFailure f = min (f + 1) (UInt32.size - 1) := rfl
        have hcloser : f < UInt32.size - 1 ∨ refusals (calls t) < bound := by
          obtain rfl | hused := h
          · exact (henv.refuses _ _ _ (hes.allowed hallowed)).imp_left fun hgives => hgives.lt hf hd
          · exact .inl (hused.lt hf hd)
        refine .done fun _ _ => ⟨_, ?_, ?_, rfl⟩
        · rw [hcalls, refusals_snoc_error, hnext]
          omega
        · rw [hnext]
          omega

theorem callPersistently_ends (henv : Relents policy bound env)
    (hR : ∀ a b, R.may a b → b.config = a.config) (hpolicy : a.config.retryPolicy = policy) :
    Returns R env (fun _ _ b => b.config = a.config) (callPersistently request) t a := by
  have h : Returns R env (fun _ _ _ => True) (callPersistently request) t a := by
    refine Returns.read fun a₁ ha₁ => callWithRetry_ends henv (.inl ?_)
    rw [hR _ _ ha₁, hpolicy]
  exact (h.keeps hR (conforms_callPersistently hR) rfl).mono fun _ _ _ h => h.2

/-! ## Repeated calls keep to their policy -/

/-- What a run of a repeated call shows keeps to the course at every moment. All its calls are of the one
request, no more than the policy has, and it returns what has come of them. It does return, unless both
the policy and the server go on for ever. -/
theorem callWithRetry_keeps_policy (R : Others) (policy : RetryPolicy) (request : Request)
    (a : Account) :
    (∀ t p b, Run R (callWithRetry policy request) a t p b →
      (∀ c ∈ calls t, c.1 = request) ∧
      (policy.callLimit < UInt32.size → (calls t).length ≤ policy.callLimit) ∧
      ∃ outcome, Course policy request 1 t outcome ∧ ∀ r, p = .done r → outcome = some r) ∧
    ∀ bound, Returns R (relenting policy bound) (fun r t _ => Course policy request 1 t (some r))
      (callWithRetry policy request) [] a := by
  constructor
  · intro t p b hrun
    obtain ⟨outcome, hcourse, hdone⟩ := course_of_run hrun
    refine ⟨hcourse.request_eq, fun hlimit => ?_, outcome, hcourse, hdone⟩
    have hlength := hcourse.length_calls_le hlimit policy.callLimit_pos
    omega
  · intro bound
    refine (callWithRetry_ends (relents_relenting policy bound) (.inl rfl)).by_run.mono ?_
    rintro r _ b ⟨es, rfl, hrun, -⟩
    obtain ⟨outcome, hcourse, hdone⟩ := course_of_run hrun
    obtain rfl := hdone r rfl
    exact hcourse

/-- A phone number is asked for twice, with three seconds in between, and refused both times. -/
theorem callWithRetry_keeps_policy_twice :
    let request : Request := .resolvePhone "15550100"
    let e : CallError := .rpc { code := 420, name := "FLOOD_WAIT", value := some 3 }
    let t : List Event := [.answered (.call request) (.error e), .paused 3000 .elapsed,
      .answered (.call request) (.error e)]
    ∃ b, Run Others.nobody (callWithRetry (.attempts 2) request) { config := default, profile := 0 } t
        (.done (.error e)) b ∧
      (calls t).length ≤ 2 ∧ Course (.attempts 2) request 1 t (some (.error e)) := by
  intro request e t
  have hexchange : Exchange request (.error e) [.answered (.call request) (.error e)] := rfl
  have hrefused (a : Account) : Run Others.nobody (call request) a
      [.answered (.call request) (.error e)] (.done (.error e)) (learn request (.error e) a) :=
    .of_exchange a hexchange
  have hwait (a : Account) : Run Others.nobody (attempt (.attempts 2) request 1) a
      ([.answered (.call request) (.error e)] ++ [.paused 3000 .elapsed]) (.done (.inl 2))
      (learn request (.error e) a) :=
    (hrefused a).bind (.single ⟨.elapsed, ⟨rfl, rfl⟩, rfl⟩)
  have hstop (a : Account) : Run Others.nobody (attempt (.attempts 2) request 2) a
      ([.answered (.call request) (.error e)] ++ []) (.done (.inr (.error e)))
      (learn request (.error e) a) :=
    (hrefused a).bind (.refl _ _)
  have hrun := (hwait { config := default, profile := 0 }).iterate_turn (hstop _).iterate_done
  obtain ⟨-, hcount, outcome, hcourse, hdone⟩ :=
    (callWithRetry_keeps_policy Others.nobody (.attempts 2) request _).1 t _ _ hrun
  obtain rfl := hdone _ rfl
  exact ⟨_, hrun, hcount (by decide), hcourse⟩

end Telebridge.Pipeline
