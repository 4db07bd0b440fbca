import Telebridge.Account.Basic
import Telebridge.Inbound.Error
import Telebridge.Program.External
set_option autoImplicit false

/-! # Programs

What an account does, as data: a tree of actions, each followed by what happens with its answer. A
program runs on behalf of one account and under one cancellation token. Loops are nodes of their own,
so every program is a finite object, and `Program.unroll` says what one turn of a loop is. -/

namespace Telebridge

/-- How a pause ended. -/
inductive Pause where
  | elapsed
  | cancelled
deriving DecidableEq, Inhabited

/-- A single action, indexed by the type of its answer. -/
inductive Action : Type → Type 1 where
  /-- An action of the surroundings. -/
  | external {β : Type} (e : External β) : Action β
  /-- Reads and changes the account in one step, as soon as `f` gives an answer. -/
  | account {β : Type} (f : Account → Option (β × Account)) : Action β
  /-- Waits for some milliseconds, or until the token is cancelled. -/
  | pause (ms : Nat) : Action Pause
  /-- Waits until the token is cancelled. -/
  | cancelled : Action Unit
  /-- Cancels the token of a task. -/
  | cancel (task : TaskId) : Action Unit
  /-- How a task ended, if it has. -/
  | outcome? (task : TaskId) : Action (Option RunOutcome)
  /-- Waits until a task has ended. -/
  | join (task : TaskId) : Action RunOutcome
  /-- Hands updates to the handler of inbound messages. -/
  | dispatch (updates : Updates) : Action (Except InboundError Unit)

/-- A program with an answer of type `α`. -/
inductive Program : Type → Type 1 where
  /-- Nothing more to do. -/
  | done {α : Type} (a : α) : Program α
  /-- An action, and what follows. -/
  | act {α β : Type} (a : Action β) (k : β → Program α) : Program α
  /-- Repeats `body` from state to state until it gives an answer. -/
  | loop {α β σ : Type} (s : σ) (body : σ → Program (σ ⊕ β)) (k : β → Program α) : Program α
  /-- Runs two programs together until one has an answer; the other is abandoned. -/
  | race {α β γ : Type} (p : Program β) (q : Program γ) (k : β ⊕ γ → Program α) : Program α
  /-- Runs a program under a token that is never cancelled. -/
  | shielded {α β : Type} (p : Program β) (k : β → Program α) : Program α
  /-- Starts a background task under a token of its own. -/
  | spawn {α : Type} (p : Program RunOutcome) (k : TaskId → Program α) : Program α

namespace Program

/-- First `p`, then what `f` makes of its answer. -/
def bind {α β : Type} (p : Program α) (f : α → Program β) : Program β :=
  match p with
  | .done a => f a
  | .act a k => .act a fun b => (k b).bind f
  | .loop s body k => .loop s body fun b => (k b).bind f
  | .race p q k => .race p q fun r => (k r).bind f
  | .shielded p k => .shielded p fun b => (k b).bind f
  | .spawn p k => .spawn p fun t => (k t).bind f

instance : Monad Program where
  pure := .done
  bind := .bind

instance {α : Type} [Inhabited α] : Inhabited (Program α) := ⟨.done default⟩

theorem pure_eq_done {α : Type} (a : α) : (pure a : Program α) = .done a := rfl

theorem bind_eq_bind {α β : Type} (p : Program α) (f : α → Program β) : p >>= f = p.bind f := rfl

@[simp] theorem done_bind {α β : Type} (a : α) (f : α → Program β) :
    (Program.done a).bind f = f a := rfl

@[simp] theorem bind_done {α : Type} (p : Program α) : p.bind .done = p := by
  induction p with
  | done a => rfl
  | act a k ih => simp only [bind, ih]
  | loop s body k _ ih => simp only [bind, ih]
  | race p q k _ _ ih => simp only [bind, ih]
  | shielded p k _ ih => simp only [bind, ih]
  | spawn p k _ ih => simp only [bind, ih]

theorem bind_assoc {α β γ : Type} (p : Program α) (f : α → Program β) (g : β → Program γ) :
    (p.bind f).bind g = p.bind fun a => (f a).bind g := by
  induction p with
  | done a => rfl
  | act a k ih => simp only [bind, ih]
  | loop s body k _ ih => simp only [bind, ih]
  | race p q k _ _ ih => simp only [bind, ih]
  | shielded p k _ ih => simp only [bind, ih]
  | spawn p k _ ih => simp only [bind, ih]

/-- One turn of a loop, then the rest of it. -/
def unroll {α β σ : Type} (s : σ) (body : σ → Program (σ ⊕ β)) (k : β → Program α) : Program α :=
  (body s).bind fun
    | .inl s' => .loop s' body k
    | .inr b => k b

/-! ## Actions as programs -/

/-- A single action. -/
def perform {β : Type} (a : Action β) : Program β :=
  .act a .done

/-- An action of the surroundings. -/
def external {β : Type} (e : External β) : Program β :=
  perform (.external e)

/-- Reads and changes the account in one step, as soon as `f` gives an answer. -/
def await {β : Type} (f : Account → Option (β × Account)) : Program β :=
  perform (.account f)

/-- Reads the account. -/
def read {β : Type} (f : Account → β) : Program β :=
  await fun a => some (f a, a)

/-- Changes the account. -/
def update (f : Account → Account) : Program Unit :=
  await fun a => some ((), f a)

/-- Waits for some milliseconds, or until the token is cancelled. -/
def pause (ms : Nat) : Program Pause :=
  perform (.pause ms)

/-- Waits until the token is cancelled. -/
def cancelled : Program Unit :=
  perform .cancelled

/-- Repeats `body` from state to state until it gives an answer. -/
def iterate {β σ : Type} (s : σ) (body : σ → Program (σ ⊕ β)) : Program β :=
  .loop s body .done

/-- Runs two programs together until one has an answer; `p` comes first if both have one. -/
def either {β γ : Type} (p : Program β) (q : Program γ) : Program (β ⊕ γ) :=
  .race p q .done

/-- The answer of a program, unless the token is cancelled before it has one. -/
def unlessCancelled {β : Type} (p : Program β) : Program (Option β) :=
  .race cancelled p fun
    | .inl () => .done none
    | .inr b => .done (some b)

/-- Runs a program under a token that is never cancelled. -/
def shield {β : Type} (p : Program β) : Program β :=
  .shielded p .done

/-- Starts a background task under a token of its own. -/
def start (p : Program RunOutcome) : Program TaskId :=
  .spawn p .done

/-! ## The account's surroundings -/

/-- The bot profile the account works for, as it is now. -/
def currentProfile : Program Profile := do
  let id ← read Account.profile
  external (.profile id)

/-- Carries out a login step with the login flow taken, and puts back what it leaves. -/
def withLogin {β : Type} (step : LoginFlow → Program (β × LoginFlow)) : Program β := do
  let flow ← await fun a =>
    match a.login with
    | .free flow => some (flow, { a with login := .taken })
    | .taken => none
  let (b, flow) ← step flow
  update fun a => { a with login := .free flow }
  return b

end Program

end Telebridge
