import Telebridge.Proofs.Program.Turns
set_option autoImplicit false

/-! # Programs with their updates handled

A batch of updates is handed to a handler, which is a program itself and takes the place of the action.
`Program.handled h` is a program with the handler `h` put in for every batch that it hands over, in
loops, races, shields and background tasks as well. What `h` hands over in turn is left as it is, so a
batch that shows in a run of `p.handled h` is one that was handed over while another was handled. -/

namespace Telebridge

/-- The event is not a batch that is handed over. -/
def Event.Undispatched : Event → Prop
  | .dispatched _ _ => False
  | _ => True

/-- The action and what follows it, with the handler in the place of a batch that is handed over. -/
def Action.handled (h : Updates → Program (Except InboundError Unit)) :
    {α β : Type} → Action β → (β → Program α) → Program α
  | _, _, .dispatch updates, k => (h updates).bind k
  | _, _, .external e, k => .act (.external e) k
  | _, _, .account f, k => .act (.account f) k
  | _, _, .pause ms, k => .act (.pause ms) k
  | _, _, .cancelled, k => .act .cancelled k
  | _, _, .cancel task, k => .act (.cancel task) k
  | _, _, .outcome? task, k => .act (.outcome? task) k
  | _, _, .join task, k => .act (.join task) k

/-- Whatever follows the action follows the handler. -/
theorem Action.handled_bind {h : Updates → Program (Except InboundError Unit)} {α β γ : Type}
    (x : Action β) (k : β → Program α) (f : α → Program γ) :
    (x.handled h k).bind f = x.handled h fun b => (k b).bind f := by
  cases x with
  | dispatch updates => exact Program.bind_assoc (h updates) k f
  | _ => rfl

namespace Program

variable {h : Updates → Program (Except InboundError Unit)} {α β : Type}

/-- The program with the handler put in for every batch that it hands over. -/
def handled (h : Updates → Program (Except InboundError Unit)) : {α : Type} → Program α → Program α
  | _, .done r => .done r
  | _, .act x k => x.handled h fun b => handled h (k b)
  | _, .loop s body k => .loop s (fun s => handled h (body s)) fun b => handled h (k b)
  | _, .race p q k => .race (handled h p) (handled h q) fun r => handled h (k r)
  | _, .shielded p k => .shielded (handled h p) fun b => handled h (k b)
  | _, .spawn p k => .spawn (handled h p) fun t => handled h (k t)

/-- Programs one after the other are handled one after the other. -/
theorem handled_bind (p : Program α) (f : α → Program β) :
    (p.bind f).handled h = (p.handled h).bind fun r => (f r).handled h := by
  induction p with
  | done r => rfl
  | act x k ih => simp only [Program.bind, handled, ih, Action.handled_bind]
  | loop s body k _ ih => simp only [Program.bind, handled, ih]
  | race p q k _ _ ih => simp only [Program.bind, handled, ih]
  | shielded p k _ ih => simp only [Program.bind, handled, ih]
  | spawn p k _ ih => simp only [Program.bind, handled, ih]

/-- If the handler hands nothing over, nothing is handed over any more. -/
theorem conforms_handled {R : Others} {heard : Event → Prop}
    (hh : ∀ updates, (h updates).Conforms R (.keeping fun _ => True) heard Event.Undispatched)
    (p : Program α) :
    (p.handled h).Conforms R (.keeping fun _ => True) heard Event.Undispatched := by
  induction p with
  | done r => exact conforms_done r
  | act x k ih =>
    cases x with
    | dispatch updates => exact Conforms.bind (hh updates) ih
    | external e => exact conforms_external_bind (e := e) fun b _ => ⟨trivial, ih b⟩
    | account f => exact Conforms.bind (p := await f) (conforms_await fun _ _ _ _ => id) ih
    | pause ms => exact Conforms.bind (p := pause ms) (conforms_pause fun _ => trivial) ih
    | cancelled => exact Conforms.bind (conforms_cancelled trivial) ih
    | cancel task =>
      exact Conforms.bind (p := perform (.cancel task)) (conforms_silent fun _ _ _ _ h => h) ih
    | outcome? task =>
      exact Conforms.bind (p := perform (.outcome? task)) (conforms_silent fun _ _ _ _ h => h) ih
    | join task =>
      exact Conforms.bind (p := perform (.join task)) (conforms_silent fun _ _ _ _ h => h) ih
  | loop s body k ihb ih =>
    exact Conforms.bind (p := iterate s fun s => (body s).handled h) (conforms_iterate ihb) ih
  | race p q k ihp ihq ih => exact Conforms.bind (conforms_either ihp ihq) ih
  | shielded p k ihp ih => exact Conforms.bind (conforms_shield ihp) ih
  | spawn p k _ ih => exact Conforms.bind (p := start (p.handled h)) conforms_start ih

end Program

end Telebridge
