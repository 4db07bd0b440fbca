import Telebridge.Outbound.Resolve
import Telebridge.Proofs.Call.Persistence
set_option autoImplicit false

/-! # Resolving in runs

Resolving a peer asks the server for users, phone numbers and usernames only, leaves the configuration
of the account alone, and always gives an answer. -/

namespace Telebridge.Resolve

open Program Pipeline

variable {R : Others} {policy : RetryPolicy} {bound : Nat} {t : List Event} {a : Account}

/-- The request asks who a peer is. -/
def IsQuery : Request → Prop
  | .getUsers _ | .resolvePhone _ | .resolveUsername _ => True
  | _ => False

/-- If the event is a call, it asks who a peer is. -/
def Asking (e : Event) : Prop :=
  ∀ c, call? e = some c → IsQuery c.1

/-! ## What is asked -/

/-- What belongs to the call of a query, or its repetitions, asks. -/
theorem asking_of_attempting {request : Request} {e : Event} (h : IsQuery request)
    (he : Attempting request e) : Asking e := by
  intro c hc
  rwa [he.request_eq hc]

/-- A query, and what follows its answer. -/
theorem conforms_query_bind {α : Type} {request : Request}
    {f : Except CallError request.expected.Value → Program α}
    (hR : ∀ a b, R.may a b → b.config = a.config) (h : IsQuery request)
    (hf : ∀ r, (f r).Conforms R .sameConfig (fun _ => True) Asking) :
    (call request >>= f).Conforms R .sameConfig (fun _ => True) Asking :=
  conforms_call_bind hR (fun _ _ => asking_of_attempting h (.dispatched _ _)) fun answer _ =>
    ⟨asking_of_attempting h (.answered answer), fun a => learn_config _ _ a, hf _⟩

theorem conforms_indexed (hR : ∀ a b, R.may a b → b.config = a.config) (digits : String) :
    (indexed digits).Conforms R .sameConfig (fun _ => True) Asking := by
  refine conforms_read.bind fun found => ?_
  split
  · refine conforms_query_bind hR trivial fun r => ?_
    cases r <;> exact conforms_done _
  · exact conforms_done _

theorem conforms_remote (hR : ∀ a b, R.may a b → b.config = a.config) (digits : String) :
    (remote digits).Conforms R .sameConfig (fun _ => True) Asking := by
  have hcall : (callWithRetry (.attempts 2) (.resolvePhone digits)).Conforms R .sameConfig
      (fun _ => True) Asking :=
    (conforms_callWithRetry hR).mono (fun _ _ => id) fun _ he =>
      have hquery : IsQuery (.resolvePhone digits) := trivial
      asking_of_attempting hquery he
  refine hcall.bind fun r => ?_
  cases r with
  | ok resolved =>
    simp only
    split
    · split <;> exact conforms_done _
    · exact conforms_done _
    · exact conforms_done _
  | error e =>
    simp only
    split <;> exact conforms_done _

theorem conforms_phone (hR : ∀ a b, R.may a b → b.config = a.config) (number : String) :
    (phone number).Conforms R .sameConfig (fun _ => True) Asking := by
  unfold phone
  dsimp only
  split
  · exact conforms_done _
  · refine (conforms_indexed hR _).bind fun r => ?_
    rcases r with e | _ | user
    · exact conforms_done _
    · exact conforms_remote hR _
    · exact conforms_done _

theorem conforms_username (hR : ∀ a b, R.may a b → b.config = a.config) (name : String) :
    (username name).Conforms R .sameConfig (fun _ => True) Asking := by
  unfold username
  dsimp only
  split
  · exact conforms_done _
  · refine conforms_query_bind hR trivial fun r => ?_
    cases r with
    | ok resolved => exact conforms_read.bind fun _ => conforms_done _
    | error e =>
      simp only
      split <;> exact conforms_done _

/-- Resolving a peer asks the server who it is, and does nothing else. -/
theorem conforms_peer (hR : ∀ a b, R.may a b → b.config = a.config) (text : String) :
    (peer text).Conforms R .sameConfig (fun _ => True) Asking := by
  unfold peer
  dsimp only
  split
  · exact conforms_done _
  · split
    · refine (conforms_phone hR _).bind fun r => ?_
      cases r <;> exact conforms_done _
    · exact conforms_username hR _

/-! ## There is an answer -/

theorem indexed_ends (digits : String) :
    Returns R (relenting policy bound) (fun _ _ _ => True) (indexed digits) t a := by
  refine Returns.read fun a₁ _ => ?_
  split
  · refine (call_ends (relents_relenting _ _)).bind fun r _ _ _ => ?_
    cases r <;> exact .done fun _ _ => trivial
  · exact .done fun _ _ => trivial

theorem remote_ends (digits : String) :
    Returns R (relenting policy bound) (fun _ _ _ => True) (remote digits) t a := by
  refine (callWithRetry_ends (relents_relenting _ _) (.inr (givesUp_attempts (by decide)))).bind fun r _ _ _ => ?_
  cases r with
  | ok resolved =>
    simp only
    split
    · split <;> exact .done fun _ _ => trivial
    · exact .done fun _ _ => trivial
    · exact .done fun _ _ => trivial
  | error e =>
    simp only
    split <;> exact .done fun _ _ => trivial

theorem phone_ends (number : String) :
    Returns R (relenting policy bound) (fun _ _ _ => True) (phone number) t a := by
  unfold phone
  dsimp only
  split
  · exact .done fun _ _ => trivial
  · refine (indexed_ends _).bind fun r _ _ _ => ?_
    rcases r with e | _ | user
    · exact .done fun _ _ => trivial
    · exact remote_ends _
    · exact .done fun _ _ => trivial

theorem username_ends (name : String) :
    Returns R (relenting policy bound) (fun _ _ _ => True) (username name) t a := by
  unfold username
  dsimp only
  split
  · exact .done fun _ _ => trivial
  · refine (call_ends (relents_relenting _ _)).bind fun r _ _ _ => ?_
    cases r with
    | ok resolved => exact Returns.read fun _ _ => .done fun _ _ => trivial
    | error e =>
      simp only
      split <;> exact .done fun _ _ => trivial

/-- A peer is resolved, or not, in finite time. -/
theorem peer_ends (text : String) :
    Returns R (relenting policy bound) (fun _ _ _ => True) (peer text) t a := by
  unfold peer
  dsimp only
  split
  · exact .done fun _ _ => trivial
  · split
    · refine (phone_ends _).bind fun r _ _ _ => ?_
      cases r <;> exact .done fun _ _ => trivial
    · exact username_ends _

end Telebridge.Resolve
