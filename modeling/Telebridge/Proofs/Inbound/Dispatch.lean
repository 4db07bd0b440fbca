import Telebridge.Proofs.Call.Transparency
import Telebridge.Proofs.Inbound.Conduct
set_option autoImplicit false

/-! # Updates are handled once

A batch that is pushed, or that comes as the reply to a call, is handled once, after the directory has
learnt what it mentions, and the call gives the reply whatever comes of that. The handler makes calls
itself, so the pipeline is entered again while it handles a batch. With a server that keeps its promises
none of these calls brings updates, so nothing is handed over a second time, and the handling ends
wherever downloads do. -/

namespace Telebridge.Inbound

open Program Pipeline

variable {R : Others} {bound : Nat} {env : Environment} {t u : List Event} {a b : Account}

/-- What a reply that is a batch brings to the directory is what the batch mentions. -/
theorem populated_updates (request : Request) (updates : Updates) (d : PeerDirectory) :
    populated request ⟨.updates, updates⟩ d = d.apply updates.users updates.chats := by
  cases updates <;> rfl

/-- The directory learns what a pushed batch mentions, then the handler has it. -/
theorem receive_handled (updates : Updates) :
    (receive updates).handled handle =
      update (fun a => { a with peers := a.peers.apply updates.users updates.chats }) >>= fun _ =>
        handle updates := by
  have hhandled : (receive updates).handled handle =
      update (fun a => { a with peers := a.peers.apply updates.users updates.chats }) >>= fun _ =>
        (handle updates).bind .done := rfl
  rwa [bind_done] at hhandled

/-- A pushed batch is handled once, after the directory has learnt what it mentions. -/
theorem receive_handled_iff {updates : Updates} {o : Except InboundError Unit} :
    Run R ((receive updates).handled handle) a t (.done o) b ↔
      ∃ a₁, R.may a a₁ ∧ Run R (handle updates)
        { a₁ with peers := a₁.peers.apply updates.users updates.chats } t (.done o) b := by
  rw [receive_handled, Run.update_bind_iff]

/-- So is a batch that comes as a reply, and the caller gets the reply whatever the handler gives. -/
theorem invoke_handled_iff {request : Request} {updates : Updates} {r : Except CallError Reply} :
    Run R ((invoke request).handled handle) a
        (.answered (.call request) (.ok ⟨.updates, updates⟩) :: u) (.done r) b ↔
      r = .ok ⟨.updates, updates⟩ ∧ ∃ a₁ o, R.may a a₁ ∧ Run R (handle updates)
        { a₁ with peers := a₁.peers.apply updates.users updates.chats } u (.done o) b := by
  rw [invoke_transparent]
  constructor
  · rintro ⟨a₁, v, ha₁, ht, hsettles⟩
    cases ht
    obtain ⟨o, hrun⟩ := hsettles
    rw [populated_updates] at hrun
    exact ⟨rfl, a₁, o, ha₁, hrun⟩
  · rintro ⟨rfl, a₁, o, ha₁, hrun⟩
    rw [← populated_updates request] at hrun
    exact ⟨a₁, u, ha₁, rfl, o, hrun⟩

/-- While a batch is handled nothing is handed over, so with the handler in place nothing is handed over
at all. -/
theorem handled_undispatched {α : Type} {p q : Program α}
    (hrun : Run R (p.handled handle) a t q b) (ht : ∀ e ∈ t, e.Typed) :
    ∀ e ∈ t, e.Undispatched := by
  have hhandle (updates : Updates) :
      (handle updates).Conforms R (.keeping fun _ => True) Event.Typed Event.Undispatched := by
    refine (conforms_handle (fun _ _ _ _ _ => id) updates).mono (fun _ _ h => h) fun e he => ?_
    cases e with
    | dispatched => exact he.elim
    | _ => trivial
  exact (hrun.conforms (fun _ _ _ => id) (conforms_handled hhandle p) ht).2.1

/-- With the handler in place, a pushed batch is dealt with in the end. -/
theorem receive_ends (henv : Download.Responsive bound env) (updates : Updates) :
    Returns R env (fun _ _ _ => True) ((receive updates).handled handle) t a := by
  rw [receive_handled]
  exact Returns.update fun a₁ _ => handle_ends henv updates

/-- So is a call, with the updates in its reply. -/
theorem invoke_ends (henv : Download.Responsive bound env) (request : Request) :
    Returns R env (fun _ _ _ => True) ((invoke request).handled handle) t a := by
  rw [invoke_handled]
  refine Returns.external (henv.answers _ _) fun r a₁ _ _ => ?_
  have hsettle : Returns R env (fun _ _ _ => True) ((settle request r).handled handle)
      (t ++ [.answered (.call request) r]) a₁ := by
    cases r with
    | error e =>
      rw [settle_error_handled]
      split
      · exact Returns.update fun _ _ => .done fun _ _ => trivial
      · exact .done fun _ _ => trivial
    | ok reply =>
      rw [settle_ok_handled]
      refine Returns.update fun a₂ _ => ?_
      split
      · exact Returns.bind (handle_ends henv _) fun _ _ _ _ => .done fun _ _ => trivial
      · exact .done fun _ _ => trivial
  exact Returns.bind hsettle fun _ _ _ _ => .done fun _ _ => trivial

/-- With the handler in place: a pushed batch is handled once, as it is and after the directory has learnt
what it mentions. So is a batch that comes as a reply, and the caller gets the reply whatever the handler
gives. If calls are answered with what they promise, the handler only asks for users, parts of files and
read marks, which promise no updates, and hands nothing over; so nothing is handed over by any program
while a batch is handled. And the pipeline comes back from the handler, unless a download goes on for
ever. -/
theorem updates_handled_once (R : Others) :
    (∀ updates a t o b, Run R ((receive updates).handled handle) a t (.done o) b ↔
      ∃ a₁, R.may a a₁ ∧ Run R (handle updates)
        { a₁ with peers := a₁.peers.apply updates.users updates.chats } t (.done o) b) ∧
    (∀ request updates a u r b, Run R ((invoke request).handled handle) a
        (.answered (.call request) (.ok ⟨.updates, updates⟩) :: u) (.done r) b ↔
      r = .ok ⟨.updates, updates⟩ ∧ ∃ a₁ o, R.may a a₁ ∧ Run R (handle updates)
        { a₁ with peers := a₁.peers.apply updates.users updates.chats } u (.done o) b) ∧
    (∀ updates a t q b, Run R (handle updates) a t q b → (∀ e ∈ t, e.Typed) →
      (∀ request answer, .answered (.call request) answer ∈ t →
        ((∃ ids, request = .getUsers ids) ∨ (∃ query, request = .getFile query) ∨
          ∃ peer maxId, request = .readHistory peer maxId) ∧ request.expected ≠ .updates) ∧
      ∀ updates o, .dispatched updates o ∉ t) ∧
    (∀ (α : Type) (p q : Program α) a t b, Run R (p.handled handle) a t q b → (∀ e ∈ t, e.Typed) →
      ∀ updates o, .dispatched updates o ∉ t) ∧
    ∀ bound env, Download.Responsive bound env → ∀ t a,
      (∀ updates, Returns R env (fun _ _ _ => True) ((receive updates).handled handle) t a) ∧
      ∀ request, Returns R env (fun _ _ _ => True) ((invoke request).handled handle) t a := by
  refine ⟨fun _ _ _ _ _ => receive_handled_iff, fun _ _ _ _ _ _ => invoke_handled_iff, ?_, ?_, ?_⟩
  · intro updates a t q b hrun ht
    have hshown : ∀ e ∈ t, Handling e :=
      (hrun.conforms (G := .keeping fun _ => True) (fun _ _ _ => id)
        (conforms_handle (fun _ _ _ _ _ => id) updates) ht).2.1
    refine ⟨fun request answer hmem => ?_, fun updates o hmem => hshown _ hmem⟩
    have hasks : Asks request := hshown _ hmem
    exact ⟨asks_iff.1 hasks, hasks.no_updates⟩
  · intro α p q a t b hrun ht updates o hmem
    exact handled_undispatched hrun ht _ hmem
  · intro bound env henv t a
    exact ⟨receive_ends henv, invoke_ends henv⟩

/-! ## A greeting -/

/-- A message from somebody who is not known. -/
def greeting : Updates :=
  .short (.newMessage (.message ⟨false, 7, none, .user 5, 0, "hi", none⟩) 1 1) 0

/-- A pushed greeting is handled once, and nothing else is handed over on the way. -/
theorem updates_handled_once_greeting :
    let bridge : Account := { config := {}, profile := 0 }
    Download.Responsive 0 calm ∧ ∃ t o b,
      Run Others.nobody ((receive greeting).handled handle) bridge t (.done o) b ∧
      (∀ e ∈ t, e.Typed) ∧ (∀ updates o, .dispatched updates o ∉ t) ∧
      Run Others.nobody (handle greeting) bridge t (.done o) b := by
  intro bridge
  obtain ⟨hpushed, -, -, hnested, hends⟩ := updates_handled_once Others.nobody
  have hreturns := (hends 0 calm calm_responsive [] bridge).1 greeting
  obtain ⟨t, o, b, hrun, henv⟩ := hreturns.exists_run
  have htyped : ∀ e ∈ t, e.Typed := henv.forall calm_responsive.typed
  obtain ⟨a₁, rfl, hhandle⟩ := (hpushed greeting bridge t o b).1 hrun
  exact ⟨calm_responsive, t, o, b, hrun, htyped, hnested _ _ _ _ _ _ hrun htyped, hhandle⟩

end Telebridge.Inbound
