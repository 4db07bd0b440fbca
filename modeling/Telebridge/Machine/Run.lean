import Telebridge.Machine.Basic
set_option autoImplicit false

/-! # Running a machine

`Machine.poll` gives a thread its turn, `Machine.pollTasks` gives every background task one, and
`Machine.run` runs a foreground program to its end. All three are cut off by an amount of fuel; a run
that is cut off, or in which everybody waits for ever, has no answer. -/

namespace Telebridge

/-- What a thread's turn led to. -/
structure Turn (ε α : Type) : Type 1 where
  thread : α ⊕ Thread ε α
  machine : Machine ε
  /-- Whether anything was done. -/
  moved : Bool

/-- How a machine is run: its surroundings, and the handler of inbound updates. -/
structure Machine.Setup (ε : Type) : Type 1 where
  surroundings : Surroundings ε
  handler : Updates → Program (Except InboundError Unit)

/-- On whose behalf a thread runs, and whether its token is cancelled. -/
structure Machine.Context where
  account : Nat
  cancelled : Bool

namespace Machine

variable {ε : Type}

/-- What a single action leads to: its answer, a program in its place, or a thread that waits. -/
inductive Step (ε : Type) (β : Type) : Type 1 where
  | answer (b : β) (m : Machine ε)
  | replace (p : Program β) (m : Machine ε)
  | wait (w : Pending ε β) (m : Machine ε)
  | sleep (wake : Nat) (h : Pause → β)
  | blocked

/-- The step for an answer that may not be there yet. -/
def Step.ofOption {β : Type} (m : Machine ε) : Option β → Step ε β
  | some b => .answer b m
  | none => .blocked

/-- Takes a single action. -/
def takeAction (s : Setup ε) (c : Context) (m : Machine ε) {β : Type} : Action β → Step ε β
  | .external e =>
    let (w, surroundings) := s.surroundings.begin e c.account m.now m.surroundings
    .wait w { m with surroundings }
  | .account f =>
    match m.account? c.account f with
    | some (b, m) => .answer b m
    | none => .blocked
  | .pause ms => .sleep (m.now + ms) id
  | .cancelled => if c.cancelled then .answer () m else .blocked
  | .cancel task => .answer () (m.cancel task)
  | .outcome? task => .answer (m.outcome? task) m
  | .join task => .ofOption m (m.outcome? task)
  | .dispatch updates => .replace (s.handler updates) m

/-- Gives a thread its turn: it goes on until it ends or has to wait. -/
def poll (s : Setup ε) {α : Type} (fuel : Nat) (c : Context) (t : Thread ε α) (m : Machine ε)
    (moved : Bool) : Turn ε α :=
  match fuel with
  | 0 => ⟨.inr t, m, moved⟩
  | fuel + 1 =>
    match t with
    | .running (.done a) => ⟨.inl a, m, true⟩
    | .running (.act a k) =>
      match takeAction s c m a with
      | .answer b m => poll s fuel c (.running (k b)) m true
      | .replace p m => poll s fuel c (.running (p.bind k)) m true
      | .wait w m => poll s fuel c (.waiting w k) m true
      | .sleep wake h => poll s fuel c (.sleeping wake fun p => k (h p)) m true
      | .blocked => ⟨.inr (.running (.act a k)), m, moved⟩
    | .running (.loop st body k) => poll s fuel c (.running (Program.unroll st body k)) m true
    | .running (.race p q k) => poll s fuel c (.racing (.running p) (.running q) k) m moved
    | .running (.shielded p k) => poll s fuel c (.shielded (.running p) k) m moved
    | .running (.spawn p k) =>
      poll s fuel c (.running (k m.tasks.size)) (m.spawn c.account p) true
    | .sleeping wake k =>
      if wake ≤ m.now then poll s fuel c (.running (k .elapsed)) m true
      else if c.cancelled then poll s fuel c (.running (k .cancelled)) m true
      else ⟨.inr (.sleeping wake k), m, moved⟩
    | .waiting w k =>
      match w.finish? m.surroundings m.now c.cancelled with
      | some (b, surroundings) =>
        poll s fuel c (.running (k b)) { m with surroundings } true
      | none => ⟨.inr (.waiting w k), m, moved⟩
    | .racing x y k =>
      match poll s fuel c x m moved with
      | ⟨.inl b, m, _⟩ => poll s fuel c (.running (k (.inl b))) m true
      | ⟨.inr x, m, moved⟩ =>
        match poll s fuel c y m moved with
        | ⟨.inl b, m, _⟩ => poll s fuel c (.running (k (.inr b))) m true
        | ⟨.inr y, m, moved⟩ => ⟨.inr (.racing x y k), m, moved⟩
    | .shielded x k =>
      match poll s fuel { c with cancelled := false } x m moved with
      | ⟨.inl b, m, _⟩ => poll s fuel c (.running (k b)) m true
      | ⟨.inr x, m, moved⟩ => ⟨.inr (.shielded x k), m, moved⟩

/-- Gives a background task its turn; tells whether anything was done. -/
def pollTask (s : Setup ε) (fuel : Nat) (m : Machine ε) (t : TaskId) : Machine ε × Bool :=
  match m.tasks[t]? with
  | none => (m, false)
  | some task =>
    match task.state with
    | .ended _ => (m, false)
    | .live thread =>
      let turn := poll s fuel ⟨task.account, task.cancelled⟩ thread m false
      let state : TaskState ε := match turn.thread with
        | .inl outcome => .ended outcome
        | .inr thread => .live thread
      ({ turn.machine with
          tasks := turn.machine.tasks.modify t fun task => { task with state } }, turn.moved)

/-- Gives every background task its turn, in order of their start. -/
def pollTasks (s : Setup ε) (fuel : Nat) (m : Machine ε) : Machine ε × Bool :=
  (List.range m.tasks.size).foldl
    (fun (m, moved) t =>
      let (m, moved') := pollTask s fuel m t
      (m, moved || moved'))
    (m, false)

/-- The first moment after now at which a background task may go on by itself. -/
def nextTaskWake? (m : Machine ε) : Option Nat :=
  m.tasks.foldl
    (fun found task =>
      match task.state with
      | .live thread => earlier? found (thread.wakeAt? m.now)
      | .ended _ => found)
    none

/-- A program in the foreground: its account, the moment at which its token is cancelled, and how far
it has come. -/
structure Foreground (ε α : Type) : Type 1 where
  account : Nat
  cancelAt : Option Nat
  thread : Thread ε α

/-- Whether the token of the foreground program is cancelled. -/
def Foreground.isCancelled {α : Type} (f : Foreground ε α) (now : Nat) : Bool :=
  f.cancelAt.any (· ≤ now)

/-- The first moment after now at which anybody may go on. -/
def nextWake? {α : Type} (m : Machine ε) (f : Foreground ε α) : Option Nat :=
  earlier? (earlier? (f.thread.wakeAt? m.now) (f.cancelAt.filter (m.now < ·))) m.nextTaskWake?

/-- Runs a foreground program: turns for everybody as long as anything is done, then time passes. -/
def runRounds (s : Setup ε) {α : Type} (turnFuel : Nat) :
    Nat → Foreground ε α → Machine ε → Option (α × Machine ε)
  | 0, _, _ => none
  | fuel + 1, f, m =>
    match poll s turnFuel ⟨f.account, f.isCancelled m.now⟩ f.thread m false with
    | ⟨.inl a, m, _⟩ => some (a, m)
    | ⟨.inr thread, m, moved⟩ =>
      let f := { f with thread }
      let (m, moved') := pollTasks s turnFuel m
      if moved || moved' then runRounds s turnFuel fuel f m
      else
        match m.nextWake? f with
        | some now => runRounds s turnFuel fuel f { m with now }
        | none => none

/-- How many things one turn, and how many rounds one run may take. -/
def defaultFuel : Nat := 10000000

/-- Runs a program of an account in the foreground, under a token that is cancelled at some moment. -/
def run (s : Setup ε) (m : Machine ε) (account : Nat) (cancelAt : Option Nat) {α : Type}
    (p : Program α) : Option (α × Machine ε) :=
  runRounds s defaultFuel defaultFuel ⟨account, cancelAt, .running p⟩ m

/-- Lets some milliseconds pass. -/
def elapse (s : Setup ε) (m : Machine ε) (ms : Nat) : Machine ε :=
  match m.run s 0 none (Program.pause ms) with
  | some (_, m) => m
  | none => m

end Machine

end Telebridge
