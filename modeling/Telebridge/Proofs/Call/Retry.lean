import Telebridge.Proofs.Call.Pipeline
set_option autoImplicit false

/-! # Repeated calls in runs

All calls in a history, and how often the current one has failed. The count that a retry policy goes
by is a function of the history: it starts anew with every answer that is not an error. -/

namespace Telebridge.Pipeline

/-- A request and its answer. -/
abbrev Call := Request × Except CallError Reply

/-- The call, if the event is one. -/
def call? : Event → Option Call
  | .answered (.call request) answer => some (request, answer)
  | _ => none

/-- The calls of a history, in order. -/
def calls (t : List Event) : List Call :=
  t.filterMap call?

@[simp] theorem calls_nil : calls [] = [] := rfl

@[simp] theorem calls_append (t u : List Event) : calls (t ++ u) = calls t ++ calls u :=
  List.filterMap_append

/-- The only call in an exchange is the call itself. -/
theorem Exchange.calls_eq {request : Request} {answer : Except CallError Reply} {es : List Event}
    (h : Exchange request answer es) : calls es = [(request, answer)] := by
  unfold Exchange at h
  split at h
  · subst h
    rfl
  · obtain ⟨o, rfl⟩ := h
    rfl

/-- First the call of an exchange, then those of the rest. -/
theorem Exchange.calls_append {request : Request} {answer : Except CallError Reply} {es : List Event}
    (h : Exchange request answer es) (t : List Event) :
    calls (es ++ t) = (request, answer) :: calls t := by
  rw [Pipeline.calls_append, h.calls_eq]
  rfl

/-- There is at most one call in a part of an exchange. -/
theorem Exchange.calls_left {request : Request} {answer : Except CallError Reply}
    {es rest : List Event} (h : Exchange request answer (es ++ rest)) :
    (∀ c ∈ calls es, c.1 = request) ∧ (calls es).length ≤ 1 := by
  have hcalls := h.calls_eq
  rw [Pipeline.calls_append] at hcalls
  refine ⟨fun c hc => ?_, ?_⟩
  · have hmem : c ∈ [(request, answer)] := hcalls ▸ List.mem_append_left _ hc
    rw [List.mem_singleton.1 hmem]
  · have hlength := congrArg List.length hcalls
    rw [List.length_append, List.length_singleton] at hlength
    omega

/-! ## Failures -/

/-- The number of the next failure after a call. -/
def failuresAfter (failures : Nat) (c : Call) : Nat :=
  match c.2 with
  | .ok _ => 1
  | .error _ => RetryPolicy.nextFailure failures

/-- The number that the next failure will have. -/
def failures (cs : List Call) : Nat :=
  cs.foldl failuresAfter 1

@[simp] theorem failures_nil : failures [] = 1 := rfl

theorem failures_snoc_ok (cs : List Call) (request : Request) (reply : Reply) :
    failures (cs ++ [(request, .ok reply)]) = 1 := by
  simp [failures, failuresAfter]

theorem failures_snoc_error (cs : List Call) (request : Request) (e : CallError) :
    failures (cs ++ [(request, .error e)]) = RetryPolicy.nextFailure (failures cs) := by
  simp [failures, failuresAfter]

/-- A failed call that is repeated was answered with an error. -/
theorem outcome_error_eq {policy : RetryPolicy} {request : Request}
    {answer : Except CallError Reply} {e : CallError} {n ms : Nat}
    (ho : outcome request answer = .error e) (hd : policy.delay? n e = some ms) :
    answer = .error e := by
  cases answer with
  | error e' =>
    cases ho
    rfl
  | ok reply =>
    simp only [outcome] at ho
    split at ho
    · cases ho
    · cases ho
      cases policy <;>
        simp [RetryPolicy.delay?, CallError.floodWait?, CallError.rpc?, CallError.isTimeout,
          CallError.isIo] at hd

/-- How often the server has refused. -/
def refusals (cs : List Call) : Nat :=
  cs.countP fun c => c.2.toOption.isNone

theorem refusals_snoc_ok (cs : List Call) (request : Request) (reply : Reply) :
    refusals (cs ++ [(request, .ok reply)]) = refusals cs := by
  simp [refusals, Except.toOption]

theorem refusals_snoc_error (cs : List Call) (request : Request) (e : CallError) :
    refusals (cs ++ [(request, .error e)]) = refusals cs + 1 := by
  simp [refusals, Except.toOption]

/-- Each request in order, first refused any number of times, then answered. -/
inductive Transmits : List Request → List Call → Prop
  | nil : Transmits [] []
  | snoc {requests : List Request} {cs : List Call} {request : Request} {reply : Reply}
      (es : List CallError) (h : Transmits requests cs) :
      Transmits (requests ++ [request])
        (cs ++ es.map (fun e => (request, .error e)) ++ [(request, .ok reply)])

/-- After transmitted requests the count of failures starts anew. -/
theorem Transmits.failures_eq {requests : List Request} {cs : List Call}
    (h : Transmits requests cs) : failures cs = 1 := by
  cases h with
  | nil => rfl
  | snoc es h => exact failures_snoc_ok _ _ _

end Telebridge.Pipeline
