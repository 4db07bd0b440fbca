import Telebridge.Program.Basic
set_option autoImplicit false

/-! # The machine that runs programs

Several programs run side by side in virtual time: one in the foreground, which somebody waits for,
and the background tasks. They take turns, and a turn goes on until the program has to wait. When all
of them wait, the clock moves on to the first moment at which one of them can go on. Computation takes
no time. -/

namespace Telebridge

/-! ## Surroundings -/

/-- An action of the surroundings that has begun. Whether it is finished depends on the state of the
surroundings, the time, and whether it is cancelled; `wakeAt` is a time at which that may change. -/
structure Pending (ε β : Type) where
  wakeAt : Option Nat := none
  finish? : ε → (now : Nat) → (cancelled : Bool) → Option (β × ε)

/-- What surroundings with states of type `ε` do: they make room for one more account, and they begin
the actions they are asked for, each on behalf of an account, at some time. -/
structure Surroundings (ε : Type) where
  enroll : Config → ε → ε
  begin : {β : Type} → External β → (account : Nat) → (now : Nat) → ε → Pending ε β × ε

/-! ## Threads -/

/-- A program on its way. -/
inductive Thread (ε : Type) : Type → Type 1 where
  /-- About to do the next thing. -/
  | running {α : Type} (p : Program α) : Thread ε α
  /-- In a pause that ends at some time. -/
  | sleeping {α : Type} (wake : Nat) (k : Pause → Program α) : Thread ε α
  /-- In an action of the surroundings. -/
  | waiting {α β : Type} (w : Pending ε β) (k : β → Program α) : Thread ε α
  /-- In two programs that run together. -/
  | racing {α β γ : Type} (x : Thread ε β) (y : Thread ε γ) (k : β ⊕ γ → Program α) : Thread ε α
  /-- In a program under a token that is never cancelled. -/
  | shielded {α β : Type} (x : Thread ε β) (k : β → Program α) : Thread ε α

/-- The earlier of two moments. -/
def earlier? : Option Nat → Option Nat → Option Nat
  | some a, some b => some (min a b)
  | a, none => a
  | none, b => b

/-- The first moment after `now` at which a thread may go on by itself. -/
def Thread.wakeAt? {ε α : Type} (now : Nat) : Thread ε α → Option Nat
  | .running _ => none
  | .sleeping moment _ => some moment
  | .waiting w _ => w.wakeAt.filter (now < ·)
  | .racing x y _ => earlier? (x.wakeAt? now) (y.wakeAt? now)
  | .shielded x _ => x.wakeAt? now

/-- A background task: it is under way, or it has ended. -/
inductive TaskState (ε : Type) : Type 1 where
  | live (thread : Thread ε RunOutcome)
  | ended (outcome : RunOutcome)

/-- A background task of an account. -/
structure BackgroundTask (ε : Type) : Type 1 where
  account : Nat
  cancelled : Bool := false
  state : TaskState ε

/-- How the task ended, if it has. -/
def BackgroundTask.outcome? {ε : Type} (t : BackgroundTask ε) : Option RunOutcome :=
  match t.state with
  | .live _ => none
  | .ended outcome => some outcome

/-! ## The machine -/

/-- The surroundings, the time, the accounts, and all background tasks in order of their start. -/
structure Machine (ε : Type) : Type 1 where
  surroundings : ε
  now : Nat := 0
  accounts : Array Account := #[]
  tasks : Array (BackgroundTask ε) := #[]

namespace Machine

variable {ε : Type}

/-- Reads and changes an account in one step, if `f` gives an answer. -/
def account? {β : Type} (m : Machine ε) (i : Nat) (f : Account → Option (β × Account)) :
    Option (β × Machine ε) :=
  match m.accounts[i]? with
  | none => none
  | some a =>
    match f a with
    | none => none
    | some (b, a) => some (b, { m with accounts := m.accounts.setIfInBounds i a })

/-- How a task ended, if it has. -/
def outcome? (m : Machine ε) (t : TaskId) : Option RunOutcome :=
  m.tasks[t]?.bind BackgroundTask.outcome?

/-- Cancels the token of a task. -/
def cancel (m : Machine ε) (t : TaskId) : Machine ε :=
  { m with tasks := m.tasks.modify t fun task => { task with cancelled := true } }

/-- Starts a background task of an account. -/
def spawn (m : Machine ε) (account : Nat) (p : Program RunOutcome) : Machine ε :=
  { m with tasks := m.tasks.push { account, state := .live (.running p) } }

end Machine

end Telebridge
