import Telebridge.Proofs.Call.Retry
set_option autoImplicit false

/-! # The course of a repeated call

`RetryPolicy.Retries` gives the rules by which a retry policy waits and calls again; they are what
`delay?` computes (`delay?_eq_some_iff`). `Pipeline.Course` says by these rules what a repeated call can
show and what comes of it. Every run keeps to that at every moment (`course_of_run`), and makes no more
calls than the policy has (`Course.length_calls_le`). -/

namespace Telebridge

/-! ## Policies -/

/-- The server asks for a wait of so many seconds. -/
inductive CallError.Advises : CallError → Nat → Prop
  | flood (seconds : UInt32) : Advises (.rpc ⟨420, "FLOOD_WAIT", some seconds⟩) seconds.toNat
  | premium (seconds : UInt32) :
      Advises (.rpc ⟨420, "FLOOD_PREMIUM_WAIT", some seconds⟩) seconds.toNat

theorem CallError.floodWait?_eq_some_iff {e : CallError} {seconds : Nat} :
    e.floodWait? = some seconds ↔ e.Advises seconds := by
  constructor
  · intro h
    cases e with
    | rpc e =>
      obtain ⟨code, name, value⟩ := e
      have hflood : RpcError.floodWait? ⟨code, name, value⟩ = some seconds := h
      unfold RpcError.floodWait? at hflood
      split at hflood
      · next hname =>
        obtain ⟨s, rfl, rfl⟩ := Option.map_eq_some_iff.1 hflood
        obtain ⟨rfl, rfl | rfl⟩ := hname
        · exact .flood s
        · exact .premium s
      · cases hflood
    | _ => cases h
  · rintro (s | s)
    · rfl
    · rfl

theorem CallError.floodWait?_eq_none_iff {e : CallError} :
    e.floodWait? = none ↔ ∀ seconds, ¬ e.Advises seconds := by
  rw [Option.eq_none_iff_forall_ne_some]
  exact forall_congr' fun seconds => not_congr floodWait?_eq_some_iff

namespace RetryPolicy

/-- After so many failures, the last with error `e`, the policy waits `ms` milliseconds and calls again.
A flood wait is sat out as advised, by a policy with a threshold only if it is not longer than that;
other waits are fixed. -/
inductive Retries : RetryPolicy → Nat → CallError → Nat → Prop
  | advised {n failures : Nat} {e : CallError} {seconds : Nat} (hn : failures < n)
      (he : e.Advises seconds) : Retries (.attempts n) failures e (seconds * 1000)
  | timeout {n failures : Nat} {e : CallError} (hn : failures < n)
      (hflood : ∀ seconds, ¬ e.Advises seconds) (he : e.isTimeout) :
      Retries (.attempts n) failures e 1000
  | tolerated {threshold : Nat} {ioDelay : Option Nat} {maxRetries failures : Nat} {e : CallError}
      {seconds : Nat} (hn : failures ≤ maxRetries) (he : e.Advises seconds)
      (hlong : seconds * 1000 ≤ threshold) :
      Retries (.autoSleep threshold ioDelay maxRetries) failures e (seconds * 1000)
  | delayed {threshold delay maxRetries failures : Nat} {e : CallError} (hn : failures ≤ maxRetries)
      (hflood : ∀ seconds, ¬ e.Advises seconds) (he : e.isTimeout ∨ e.isIo) :
      Retries (.autoSleep threshold (some delay) maxRetries) failures e delay

theorem retries_of_delay? {policy : RetryPolicy} {failures ms : Nat} {e : CallError}
    (h : policy.delay? failures e = some ms) : policy.Retries failures e ms := by
  cases policy with
  | never => cases h
  | attempts n =>
    rw [delay?] at h
    split at h
    · cases h
    · next hn =>
      cases hwait : e.floodWait? with
      | some seconds =>
        rw [hwait] at h
        obtain rfl := Option.some.inj h
        exact .advised (by omega) (CallError.floodWait?_eq_some_iff.1 hwait)
      | none =>
        simp only [hwait] at h
        split at h
        · next he =>
          obtain rfl := Option.some.inj h
          exact .timeout (by omega) (CallError.floodWait?_eq_none_iff.1 hwait) he
        · cases h
  | autoSleep threshold ioDelay maxRetries =>
    rw [delay?] at h
    split at h
    · cases h
    · next hn =>
      cases hwait : e.floodWait? with
      | some seconds =>
        simp only [hwait] at h
        split at h
        · next hlong =>
          obtain rfl := Option.some.inj h
          exact .tolerated (by omega) (CallError.floodWait?_eq_some_iff.1 hwait) (by omega)
        · cases h
      | none =>
        simp only [hwait] at h
        split at h
        · next he =>
          subst h
          exact .delayed (by omega) (CallError.floodWait?_eq_none_iff.1 hwait) (by simpa using he)
        · cases h

theorem Retries.delay?_eq {policy : RetryPolicy} {failures ms : Nat} {e : CallError}
    (h : policy.Retries failures e ms) : policy.delay? failures e = some ms := by
  cases h with
  | advised hn he => simp [delay?, CallError.floodWait?_eq_some_iff.2 he, hn]
  | timeout hn hflood he => simp [delay?, CallError.floodWait?_eq_none_iff.2 hflood, hn, he]
  | tolerated hn he hlong =>
    rw [delay?, if_neg (by omega), CallError.floodWait?_eq_some_iff.2 he]
    exact if_pos (by omega)
  | delayed hn hflood he => simp [delay?, CallError.floodWait?_eq_none_iff.2 hflood, hn, he]

/-- The rules are what the policies do. -/
theorem delay?_eq_some_iff {policy : RetryPolicy} {failures ms : Nat} {e : CallError} :
    policy.delay? failures e = some ms ↔ policy.Retries failures e ms :=
  ⟨retries_of_delay?, Retries.delay?_eq⟩

theorem delay?_eq_none_iff {policy : RetryPolicy} {failures : Nat} {e : CallError} :
    policy.delay? failures e = none ↔ ∀ ms, ¬ policy.Retries failures e ms := by
  rw [Option.eq_none_iff_forall_ne_some]
  exact forall_congr' fun ms => not_congr delay?_eq_some_iff

theorem not_retries_unexpectedResult {policy : RetryPolicy} {failures ms : Nat}
    {method got : String} : ¬ policy.Retries failures (.unexpectedResult method got) ms := by
  rintro (⟨-, he⟩ | ⟨-, -, he⟩ | ⟨-, he, -⟩ | ⟨-, -, he⟩)
  · cases he
  · cases he
  · cases he
  · rcases he with he | he
    · cases he
    · cases he

/-- How many calls a policy makes at most. -/
def callLimit : RetryPolicy → Nat
  | .never => 1
  | .attempts n => max n 1
  | .autoSleep _ _ maxRetries => maxRetries + 1

theorem callLimit_pos (policy : RetryPolicy) : 0 < policy.callLimit := by
  cases policy with
  | never => exact Nat.one_pos
  | attempts n =>
    simp only [callLimit]
    omega
  | autoSleep threshold ioDelay maxRetries => exact Nat.succ_pos maxRetries

/-- After as many failures as there are calls no other call follows. -/
theorem Retries.lt_callLimit {policy : RetryPolicy} {failures ms : Nat} {e : CallError}
    (h : policy.Retries failures e ms) : failures < policy.callLimit := by
  cases h with
  | advised hn =>
    simp only [callLimit]
    omega
  | timeout hn =>
    simp only [callLimit]
    omega
  | tolerated hn => exact Nat.lt_succ_of_le hn
  | delayed hn => exact Nat.lt_succ_of_le hn

end RetryPolicy

namespace Pipeline

open Program

variable {R : Others} {policy : RetryPolicy} {request : Request}

/-! ## The course -/

/-- What a repeated call shows from its `n`-th failure in a row on, if it fails then, and what has come of
it, if that is settled. The same request is called until the first success, the first error that the
policy does not retry, or a wait that is cancelled. A reply of another kind than promised is an error,
and never retried. -/
inductive Course (policy : RetryPolicy) (request : Request) :
    Nat → List Event → Option (Except CallError request.expected.Value) → Prop
  | underWay {n : Nat} {answer : Except CallError Reply} {es rest : List Event}
      (hes : Exchange request answer (es ++ rest)) : Course policy request n es none
  | succeeded {n : Nat} {reply : Reply} {v : request.expected.Value} {es : List Event}
      (hes : Exchange request (.ok reply) es) (hv : reply.value? request.expected = some v) :
      Course policy request n es (some (.ok v))
  | mismatched {n : Nat} {reply : Reply} {es : List Event}
      (hes : Exchange request (.ok reply) es) (hv : reply.value? request.expected = none) :
      Course policy request n es
        (some (.error (.unexpectedResult request.method reply.kind.name)))
  | refused {n : Nat} {e : CallError} (he : ∀ ms, ¬ policy.Retries n e ms) :
      Course policy request n [.answered (.call request) (.error e)] (some (.error e))
  | cancelled {n ms : Nat} {e : CallError} (he : policy.Retries n e ms) :
      Course policy request n [.answered (.call request) (.error e), .paused ms .cancelled]
        (some (.error .cancelled))
  | again {n ms : Nat} {e : CallError} {t : List Event}
      {outcome : Option (Except CallError request.expected.Value)} (he : policy.Retries n e ms)
      (ht : Course policy request (RetryPolicy.nextFailure n) t outcome) :
      Course policy request n
        (.answered (.call request) (.error e) :: .paused ms .elapsed :: t) outcome

/-- At first nothing has been shown. -/
theorem Course.nil (n : Nat) : Course policy request n [] none := by
  obtain ⟨es, hes⟩ := exists_exchange request (.error .cancelled)
  have hstart : Exchange request (.error .cancelled)
      ([] ++ .answered (.call request) (.error .cancelled) :: es) := hes
  exact .underWay hstart

/-- The request stays the same. -/
theorem Course.request_eq {n : Nat} {t : List Event}
    {outcome : Option (Except CallError request.expected.Value)}
    (h : Course policy request n t outcome) : ∀ c ∈ calls t, c.1 = request := by
  induction h with
  | underWay hes => exact hes.calls_left.1
  | succeeded hes =>
    rw [hes.calls_eq]
    simp
  | mismatched hes =>
    rw [hes.calls_eq]
    simp
  | refused => simp [calls, call?]
  | cancelled => simp [calls, call?]
  | again _ _ ih => exact List.forall_mem_cons.2 ⟨rfl, ih⟩

/-- No more calls are made than the policy has left, if the failures can be counted. -/
theorem Course.length_calls_le {n : Nat} {t : List Event}
    {outcome : Option (Except CallError request.expected.Value)}
    (hlimit : policy.callLimit < UInt32.size) (h : Course policy request n t outcome)
    (hn : n ≤ policy.callLimit) : (calls t).length + n ≤ policy.callLimit + 1 := by
  induction h with
  | underWay hes =>
    have hlength := hes.calls_left.2
    omega
  | succeeded hes =>
    rw [hes.calls_eq, List.length_singleton]
    omega
  | mismatched hes =>
    rw [hes.calls_eq, List.length_singleton]
    omega
  | refused =>
    simp only [calls, call?, List.filterMap_cons, List.filterMap_nil, List.length_singleton]
    omega
  | cancelled =>
    simp only [calls, call?, List.filterMap_cons, List.filterMap_nil, List.length_singleton]
    omega
  | @again n ms e t outcome he _ ih =>
    have hlt := he.lt_callLimit
    have hnext : RetryPolicy.nextFailure n = n + 1 := by
      have hmin : RetryPolicy.nextFailure n = min (n + 1) (UInt32.size - 1) := rfl
      omega
    rw [hnext] at ih
    have hrest := ih hlt
    have hcalls : (calls (.answered (.call request) (.error e) :: .paused ms .elapsed :: t)).length =
        (calls t).length + 1 := rfl
    omega

/-! ## Runs -/

/-- The events that keep to the course. -/
def OnCourse (policy : RetryPolicy) (request : Request) : Environment := fun t e =>
  ∃ outcome, Course policy request 1 (t ++ [e]) outcome

/-- An exchange is shown event by event. -/
theorem onCourse_exchange {n : Nat} {t es : List Event} {answer : Except CallError Reply}
    (h : ∀ u outcome, Course policy request n u outcome → Course policy request 1 (t ++ u) outcome)
    (hes : Exchange request answer es) : (OnCourse policy request).Allows t es := by
  refine Environment.allows_of_forall fun us e vs hsplit => ⟨none, ?_⟩
  have hleft : Exchange request answer ((us ++ [e]) ++ vs) := by
    rw [List.append_assoc]
    exact hsplit ▸ hes
  rw [List.append_assoc]
  exact h _ _ (.underWay hleft)

/-- Every run keeps to the course, and returns what has come of it. -/
theorem safe_callWithRetry (a : Account) :
    Safe R Environment.anything (OnCourse policy request)
      (fun r t _ => Course policy request 1 t (some r)) (callWithRetry policy request) [] a := by
  -- whatever the course is from here on makes up the whole
  refine Safe.iterate (fun n t _ => ∀ u outcome, Course policy request n u outcome →
    Course policy request 1 (t ++ u) outcome) ?_ fun u outcome h => h
  intro n t a h
  refine Safe.call (fun answer _ => ?_) fun answer es a₁ a₂ _ _ hes _ => ?_
  · obtain ⟨es, hes⟩ := exists_exchange request answer
    exact (onCourse_exchange h hes).1
  refine ⟨onCourse_exchange h hes, ?_⟩
  cases answer with
  | ok reply =>
    cases hv : reply.value? request.expected with
    | some v =>
      rw [outcome_ok hv]
      exact .done fun b _ => h _ _ (.succeeded hes hv)
    | none =>
      rw [outcome_mismatched hv]
      have hnone : policy.delay? n (.unexpectedResult request.method reply.kind.name) = none :=
        RetryPolicy.delay?_eq_none_iff.2 fun ms => RetryPolicy.not_retries_unexpectedResult
      simp only [hnone]
      exact .done fun b _ => h _ _ (.mismatched hes hv)
  | error e =>
    obtain rfl := hes.eq rfl
    have ho : outcome request (.error e) = .error e := rfl
    rw [ho]
    cases hd : policy.delay? n e with
    | none =>
      simp only [hd]
      exact .done fun b _ => h _ _ (.refused (RetryPolicy.delay?_eq_none_iff.1 hd))
    | some ms =>
      simp only [hd]
      have he := RetryPolicy.retries_of_delay? hd
      refine Safe.pause fun how a₃ _ _ => ?_
      have hpaused (u : List Event) (outcome : Option (Except CallError request.expected.Value))
          (hu : Course policy request n
            ([.answered (.call request) (.error e), .paused ms how] ++ u) outcome) :
          Course policy request 1
            (t ++ [.answered (.call request) (.error e)] ++ [.paused ms how] ++ u) outcome := by
        simpa using h _ _ hu
      cases how with
      | cancelled =>
        have hend := hpaused [] _ (.cancelled he)
        rw [List.append_nil] at hend
        exact ⟨⟨_, hend⟩, .done fun b _ => hend⟩
      | elapsed =>
        have hnext := hpaused [] _ (.again he (.nil _))
        rw [List.append_nil] at hnext
        exact ⟨⟨_, hnext⟩, .done fun b _ u outcome hu => hpaused u outcome (.again he hu)⟩

/-- What a run has shown so far keeps to the course, and what it returns is what has come of it. -/
theorem course_of_run {a b : Account} {t : List Event}
    {p : Program (Except CallError request.expected.Value)}
    (h : Run R (callWithRetry policy request) a t p b) :
    ∃ outcome, Course policy request 1 t outcome ∧ ∀ r, p = .done r → outcome = some r := by
  obtain ⟨hshown, hreturned⟩ := safe_callWithRetry a t p b h (Environment.anything_allows _ _)
  by_cases hp : ∃ r, p = .done r
  · obtain ⟨r, rfl⟩ := hp
    refine ⟨some r, hreturned r rfl, fun r' hr => ?_⟩
    cases hr
    rfl
  · rcases List.eq_nil_or_concat t with rfl | ⟨us, e, rfl⟩
    · exact ⟨none, .nil _, fun r hr => absurd ⟨r, hr⟩ hp⟩
    · rw [List.concat_eq_append] at hshown ⊢
      obtain ⟨outcome, hcourse⟩ := hshown.at
      exact ⟨outcome, hcourse, fun r hr => absurd ⟨r, hr⟩ hp⟩

end Pipeline

end Telebridge
