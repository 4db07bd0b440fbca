import Telebridge.Proofs.Call.Pipeline
set_option autoImplicit false

/-! # Answers of the promised kind

A server that keeps its promises answers every request with an error or with a reply that the caller can
read (`Request.Accepts`). Of such a server only the requests that promise updates bring any, so calls of
all others hand nothing over, and the rules for them say so. -/

namespace Telebridge

open Pipeline Program

/-- The answer is an error, or a reply of the kind that the request promises. -/
def Request.Accepts (request : Request) : Except CallError Reply → Prop
  | .error _ => True
  | .ok reply => (reply.value? request.expected).isSome

/-- Calls are answered with what they promise. -/
def Event.Typed : Event → Prop
  | .answered (.call request) answer => request.Accepts answer
  | _ => True

variable {R G : Others} {env : Environment} {shown : Event → Prop} {α : Type} {request : Request}
  {answer : Except CallError Reply}

/-- An accepted reply has the promised kind. -/
theorem Request.Accepts.kind_eq {reply : Reply} (h : request.Accepts (.ok reply)) :
    reply.kind = request.expected := by
  by_cases hk : reply.kind = request.expected
  · exact hk
  · simp [Request.Accepts, Reply.value?, hk] at h

/-- A request that does not promise updates does not bring any. -/
theorem Request.Accepts.no_updates (h : request.Accepts answer) (hu : request.expected ≠ .updates) :
    updates? answer = none := by
  cases answer with
  | error e => rfl
  | ok reply =>
    have hk : reply.kind ≠ .updates := by
      rw [h.kind_eq]
      exact hu
    exact dif_neg hk

/-- An accepted answer that gives an error is this error. -/
theorem Request.Accepts.eq_error {e : CallError} (h : request.Accepts answer)
    (hout : outcome request answer = .error e) : answer = .error e := by
  cases answer with
  | error e' => exact congrArg _ (Except.error.inj hout)
  | ok reply =>
    obtain ⟨v, hv⟩ := Option.isSome_iff_exists.1 h
    rw [outcome_ok hv] at hout
    cases hout

/-- Settling an answer without updates only does to the account what `learn` says. -/
theorem Program.conforms_settle_quiet {heard : Event → Prop} (hu : updates? answer = none)
    (h : ∀ a, G.may a (learn request answer a)) :
    Conforms R G heard shown (settle request answer) := by
  cases answer with
  | error e =>
    simp only [settle]
    split
    · next he => exact conforms_update fun a => by simpa only [learn, he, if_true] using h a
    · exact conforms_done _
  | ok reply =>
    refine Conforms.bind (conforms_update h) fun _ => ?_
    have hnone : reply.value? .updates = none := hu
    rw [hnone]
    exact conforms_done _

/-- A call that promises no updates, and what is made of an accepted answer. -/
theorem Program.conforms_typed_call_bind {f : Except CallError request.expected.Value → Program α}
    (hu : request.expected ≠ .updates)
    (h : ∀ b, request.Accepts b → shown (.answered (.call request) b) ∧
      (∀ a, G.may a (learn request b a)) ∧ Conforms R G Event.Typed shown (f (outcome request b))) :
    Conforms R G Event.Typed shown (call request >>= f) := by
  rw [call_bind]
  refine conforms_external_bind fun b hb => ?_
  obtain ⟨hs, hl, hf⟩ := h b hb
  exact ⟨hs, (conforms_settle_quiet (hb.no_updates hu) hl).bind fun _ => hf⟩

/-- Where all answers are accepted, a call that promises no updates comes to its end. -/
theorem Program.Returns.typed_call {f : Except CallError request.expected.Value → Program α}
    {Q : α → List Event → Account → Prop} {t : List Event} {a : Account}
    (hu : request.expected ≠ .updates) (typed : ∀ t e, env t e → e.Typed)
    (can : ∃ b, env t (.answered (.call request) b))
    (must : ∀ b a₁ a', R.may a a₁ → R.may (learn request b a₁) a' →
      env t (.answered (.call request) b) → request.Accepts b →
      Returns R env Q (f (outcome request b)) (t ++ [.answered (.call request) b]) a') :
    Returns R env Q (Pipeline.call request >>= f) t a := by
  refine Returns.call can (fun b updates henv hb => ?_) fun b es a₁ a' ha₁ ha' hes henv => ?_
  · have hacc : request.Accepts b := typed _ _ henv
    rw [hacc.no_updates hu] at hb
    cases hb
  · have hanswer := hes.allowed henv
    have hacc : request.Accepts b := typed _ _ hanswer
    obtain rfl := hes.eq (hacc.no_updates hu)
    exact must b a₁ a' ha₁ ha' hanswer hacc

/-- A finished call with an accepted answer that promises no updates: it shows just the answer. -/
theorem Program.Run.typed_call_done {r : Except CallError request.expected.Value} {t : List Event}
    {a b : Account} (hu : request.expected ≠ .updates) (h : Run R (Pipeline.call request) a t (.done r) b)
    (ht : ∀ e ∈ t, e.Typed) :
    ∃ answer a₁, request.Accepts answer ∧ t = [.answered (.call request) answer] ∧
      r = outcome request answer ∧ R.may a a₁ ∧ R.may (learn request answer a₁) b := by
  obtain ⟨answer, a₁, hes, rfl, ha₁, hb⟩ := h.call_done
  have hacc : request.Accepts answer := ht _ hes.answer_mem
  exact ⟨answer, a₁, hacc, hes.eq (hacc.no_updates hu), rfl, ha₁, hb⟩

end Telebridge
