import Telebridge.Machine.Run
import Telebridge.Proofs.Program.Conduct
import Telebridge.Proofs.Program.Turns
set_option autoImplicit false

/-! # Turns of the machine are runs

The machine keeps threads, not programs: a pause or an action that has begun, the two sides of a race,
and updates that are handled in the place of the program that handed them over. `Thread.Stands` tells
which program a thread stands for. Whatever a turn of a thread does is a run of that program
(`Machine.poll_turned`), so what holds of all runs of a program holds of the machine. -/

namespace Telebridge

open Program

variable {ε : Type} {R : Others} {α : Type}

/-- The program that a thread stands for. While updates are handled, it is the program that waits for
the handler, which may do to the account what the others may. -/
inductive Thread.Stands (R : Others) : {α : Type} → Thread ε α → Program α → Prop
  | running {α : Type} (p : Program α) : Stands R (.running p) p
  | sleeping {α : Type} (wake ms : Nat) (k : Pause → Program α) :
      Stands R (.sleeping wake k) (.act (.pause ms) k)
  | waiting {α β : Type} (w : Pending ε β) (e : External β) (k : β → Program α) :
      Stands R (.waiting w k) (.act (.external e) k)
  | racing {α β γ : Type} {x : Thread ε β} {y : Thread ε γ} {p : Program β} {q : Program γ}
      {k : β ⊕ γ → Program α} (hx : Stands R x p) (hy : Stands R y q) :
      Stands R (.racing x y k) (.race p q k)
  | shielded {α β : Type} {x : Thread ε β} {p : Program β} {k : β → Program α}
      (hx : Stands R x p) : Stands R (.shielded x k) (.shielded p k)
  | handling {α : Type} {t : Thread ε α} {updates : Updates}
      {h : Program (Except InboundError Unit)} {k : Except InboundError Unit → Program α}
      (hh : h.Conforms R R (fun _ => True) fun _ => True) (ht : Stands R t (h.bind k)) :
      Stands R t (.act (.dispatch updates) k)

namespace Machine

/-- Where a turn has taken a program. -/
def Reached (R : Others) (p : Program α) (turn : Turn ε α) : Prop :=
  match turn.thread with
  | .inl r => p = .done r
  | .inr t => t.Stands R p

/-- A turn is a run of a program, from an account to what the turn makes of it. Only a cancelled token
is seen to be cancelled. -/
def Turned (R : Others) (c : Context) (p : Program α) (a : Account) (turn : Turn ε α) : Prop :=
  ∃ es q b, Run R p a es q b ∧ (c.cancelled = false → .cancelled ∉ es) ∧
    turn.machine.accounts[c.account]? = some b ∧ Reached R q turn

variable {c : Context} {p q : Program α} {a b : Account} {m : Machine ε} {turn : Turn ε α}

/-- Nothing is done. -/
theorem Turned.stop (ha : turn.machine.accounts[c.account]? = some a) (h : Reached R p turn) :
    Turned R c p a turn :=
  ⟨[], p, a, .refl p a, fun _ => List.not_mem_nil, ha, h⟩

/-- A run and the rest of a turn. -/
theorem Turned.after_run {es : List Event} (h : Turned R c q b turn) (hrun : Run R p a es q b)
    (hes : c.cancelled = false → .cancelled ∉ es) : Turned R c p a turn := by
  obtain ⟨fs, r, d, hrest, hfs, hd, hr⟩ := h
  refine ⟨es ++ fs, r, d, hrun.append hrest, fun hc => ?_, hd, hr⟩
  rw [List.mem_append, not_or]
  exact ⟨hes hc, hfs hc⟩

/-- A step that is not the news of a cancelled token, and the rest of a turn. -/
theorem Turned.after_step {es : List Event} (h : Turned R c q b turn)
    (hs : Program.Step R p a es q b)
    (hes : .cancelled ∉ es) : Turned R c p a turn :=
  h.after_run (.single hs) fun _ => hes

/-- While updates are handled, the program that waits for the handler is where it was; when they have
been handled it goes on. -/
theorem Turned.handling {updates : Updates} {h : Program (Except InboundError Unit)}
    {k : Except InboundError Unit → Program α}
    (hh : h.Conforms R R (fun _ => True) fun _ => True) (hturn : Turned R c (h.bind k) a turn) :
    Turned R c (.act (.dispatch updates) k) a turn := by
  obtain ⟨es, q, b, hrun, hes, hb, hq⟩ := hturn
  -- the others and the handler, then the end of the handling
  have hhandled {o : Except InboundError Unit} {a₁ : Account} (hmay : R.may a a₁) :
      Run R (.act (.dispatch updates) k) a [.dispatched updates o] (k o) a₁ :=
    .single ⟨o, ⟨rfl, hmay⟩, rfl⟩
  obtain ⟨h', hrun', rfl⟩ | ⟨o, t₁, t₂, a₁, rfl, hrun₁, hrun₂⟩ := hrun.bind_cases
  · obtain ⟨hmay, -, hh'⟩ := hrun'.conforms (fun _ _ h => h) hh fun _ _ => trivial
    rcases hthread : turn.thread with r | t
    · have hdone : h'.bind k = .done r := by simpa only [Reached, hthread] using hq
      obtain ⟨o, rfl, hk⟩ := exists_of_bind_eq_done hdone
      refine ⟨[.dispatched updates o], k o, b, hhandled hmay, fun _ => by simp, hb, ?_⟩
      simp only [Reached, hthread]
      exact hk
    · have ht : t.Stands R (h'.bind k) := by simpa only [Reached, hthread] using hq
      refine ⟨[], _, b, .stop hmay, fun _ => List.not_mem_nil, hb, ?_⟩
      simpa only [Reached, hthread] using Thread.Stands.handling hh' ht
  · have hmay := (hrun₁.conforms (fun _ _ h => h) hh fun _ _ => trivial).1
    refine ⟨[.dispatched updates o] ++ t₂, q, b, (hhandled hmay).append hrun₂, fun hc => ?_, hb, hq⟩
    have := hes hc
    simp only [List.mem_append, not_or] at this
    simpa using this.2

variable {s : Setup ε}

end Machine

end Telebridge
