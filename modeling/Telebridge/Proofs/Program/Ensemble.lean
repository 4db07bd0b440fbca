import Mathlib.Logic.Relation
import Telebridge.Proofs.Program.Run
set_option autoImplicit false

/-! # An account and its background tasks

`Program.Run` follows one program of an account, and a background task is then one of the others. Here the
tasks are told apart: an `Ensemble` is an account with the tasks that were started for it. `Ensemble.Step` is
what its tasks and the others do. `Program.Move` is what a program in the foreground does, which may start
tasks, cancel them, ask for their outcome and wait for it, and `Program.Calling` any number of its moves,
finished or not, among steps of the ensemble.

A task that has ended keeps its outcome for good (`Ensemble.Later`), so what a program has been told about a
task remains true. -/

namespace Telebridge

/-! ## Ensembles -/

/-- A background task: it is alive, under a token that may be cancelled, or it has ended. -/
inductive Task : Type 1 where
  | alive (cancelled : Bool) (p : Program RunOutcome)
  | ended (outcome : RunOutcome)

namespace Task

/-- How the task ended, if it has. -/
def outcome? : Task → Option RunOutcome
  | .alive _ _ => none
  | .ended outcome => some outcome

/-- Cancels the token of the task. -/
def cancel : Task → Task
  | .alive _ p => .alive true p
  | .ended outcome => .ended outcome

end Task

/-- An account, and the background tasks that were started for it, in order of their start. -/
structure Ensemble : Type 1 where
  account : Account
  tasks : List Task

namespace Ensemble

/-- How a task ended, if it has. -/
def outcome? (w : Ensemble) (t : TaskId) : Option RunOutcome :=
  w.tasks[t]?.bind Task.outcome?

/-- Cancels the token of a task. -/
def cancel (w : Ensemble) (t : TaskId) : Ensemble :=
  { w with tasks := w.tasks.modify t Task.cancel }

/-- Starts a task. -/
def spawn (w : Ensemble) (p : Program RunOutcome) : Ensemble :=
  { w with tasks := w.tasks ++ [.alive false p] }

/-- The task is alive. -/
def Lives (w : Ensemble) (t : TaskId) : Prop :=
  ∃ c p, w.tasks[t]? = some (.alive c p)

variable {w w' : Ensemble} {t : TaskId} {o : RunOutcome}

theorem outcome?_eq_some_iff : w.outcome? t = some o ↔ w.tasks[t]? = some (.ended o) := by
  rw [outcome?, Option.bind_eq_some_iff]
  constructor
  · rintro ⟨task, htask, ho⟩
    cases task with
    | alive c p => cases ho
    | ended o' =>
      cases ho
      exact htask
  · exact fun h => ⟨_, h, rfl⟩

/-- A task that was started lives, or it has ended. -/
theorem lives_or_ended (h : t < w.tasks.length) : w.Lives t ∨ ∃ o, w.outcome? t = some o := by
  have htask := List.getElem?_eq_getElem h
  cases hcase : w.tasks[t] with
  | alive c p => exact .inl ⟨c, p, by rw [htask, hcase]⟩
  | ended o => exact .inr ⟨o, outcome?_eq_some_iff.2 (by rw [htask, hcase])⟩

theorem Lives.lt (h : w.Lives t) : t < w.tasks.length := by
  obtain ⟨c, p, h⟩ := h
  exact (List.getElem?_eq_some_iff.1 h).1

theorem Lives.outcome? (h : w.Lives t) : w.outcome? t = none := by
  obtain ⟨c, p, h⟩ := h
  simp [Ensemble.outcome?, h, Task.outcome?]

/-- Where all tasks have ended, none is alive. -/
theorem not_lives (h : ∀ task ∈ w.tasks, task.outcome?.isSome) : ¬ w.Lives t := by
  rintro ⟨c, p, ht⟩
  cases h _ (List.mem_of_getElem? ht)

/-! ## Cancelled and new tasks -/

theorem getElem?_cancel (w : Ensemble) (t t' : TaskId) :
    (w.cancel t).tasks[t']? = w.tasks[t']?.map fun task => if t = t' then task.cancel else task := by
  rw [cancel, List.getElem?_modify, Option.map_eq_map]

theorem outcome?_cancel (w : Ensemble) (t t' : TaskId) : (w.cancel t).outcome? t' = w.outcome? t' := by
  rw [outcome?, getElem?_cancel, outcome?]
  cases w.tasks[t']? with
  | none => rfl
  | some task =>
    simp only [Option.map_some, Option.bind_some]
    split
    · cases task <;> rfl
    · rfl

/-- A task that is alive when one is cancelled was alive before, and its token is cancelled if it is the
one. -/
theorem alive_of_cancel {t' : TaskId} {c : Bool} {p : Program RunOutcome}
    (h : (w.cancel t).tasks[t']? = some (.alive c p)) :
    ∃ c', w.tasks[t']? = some (.alive c' p) ∧ (t' = t → c = true) := by
  rw [getElem?_cancel, Option.map_eq_some_iff] at h
  obtain ⟨task, htask, h⟩ := h
  split at h
  · cases task with
    | alive c' p' =>
      cases h
      exact ⟨c', htask, fun _ => rfl⟩
    | ended o => cases h
  · next hne =>
    subst h
    exact ⟨c, htask, fun heq => absurd heq.symm hne⟩

theorem lives_of_cancel {t' : TaskId} (h : (w.cancel t).Lives t') : w.Lives t' := by
  obtain ⟨c, p, h⟩ := h
  obtain ⟨c', h, -⟩ := alive_of_cancel h
  exact ⟨c', p, h⟩

theorem lives_cancel {t' : TaskId} (h : w.Lives t') : (w.cancel t).Lives t' := by
  obtain ⟨c, p, h⟩ := h
  rw [Lives, getElem?_cancel, h]
  by_cases heq : t = t'
  · exact ⟨true, p, by rw [Option.map_some, if_pos heq]; rfl⟩
  · exact ⟨c, p, by rw [Option.map_some, if_neg heq]⟩

theorem outcome?_spawn (w : Ensemble) (p : Program RunOutcome) (t : TaskId) :
    (w.spawn p).outcome? t = w.outcome? t := by
  rw [outcome?, spawn, outcome?, List.getElem?_append]
  split
  · rfl
  · next hlt =>
    rw [List.getElem?_eq_none (Nat.le_of_not_lt hlt), List.getElem?_singleton]
    split <;> rfl

/-- A task that is alive when one is started was alive before, or is the one. -/
theorem alive_of_spawn {c : Bool} {p q : Program RunOutcome}
    (h : (w.spawn q).tasks[t]? = some (.alive c p)) :
    w.tasks[t]? = some (.alive c p) ∨ t = w.tasks.length ∧ p = q := by
  rw [spawn, List.getElem?_append] at h
  split at h
  · exact .inl h
  · next hlt =>
    rw [List.getElem?_singleton] at h
    split at h
    · next heq =>
      cases h
      exact .inr ⟨Nat.le_antisymm (Nat.le_of_sub_eq_zero heq) (Nat.le_of_not_lt hlt), rfl⟩
    · cases h

theorem lives_spawn (w : Ensemble) (p : Program RunOutcome) : (w.spawn p).Lives w.tasks.length :=
  ⟨false, p, by rw [spawn, List.getElem?_concat_length]⟩

/-! ## What is later -/

/-- Tasks are added, and those that have ended remain so. -/
structure Later (w w' : Ensemble) : Prop where
  length : w.tasks.length ≤ w'.tasks.length
  ended : ∀ t o, w.outcome? t = some o → w'.outcome? t = some o

theorem Later.refl (w : Ensemble) : w.Later w := ⟨Nat.le_refl _, fun _ _ h => h⟩

theorem Later.trans {w'' : Ensemble} (h : w.Later w') (h' : w'.Later w'') : w.Later w'' :=
  ⟨Nat.le_trans h.length h'.length, fun t o ho => h'.ended t o (h.ended t o ho)⟩

/-- What lives later has lived before, or is new. -/
theorem Later.lives (h : w.Later w') (ht : t < w.tasks.length) (hlives : w'.Lives t) : w.Lives t := by
  obtain hlives | ⟨o, ho⟩ := lives_or_ended ht
  · exact hlives
  · have := hlives.outcome?
    rw [h.ended t o ho] at this
    cases this

theorem later_account (w : Ensemble) (a : Account) : w.Later { w with account := a } :=
  ⟨Nat.le_refl _, fun _ _ h => h⟩

theorem later_cancel (w : Ensemble) (t : TaskId) : w.Later (w.cancel t) :=
  ⟨by simp [cancel], fun t' o h => (outcome?_cancel w t t').trans h⟩

theorem later_spawn (w : Ensemble) (p : Program RunOutcome) : w.Later (w.spawn p) :=
  ⟨by simp [spawn], fun t o h => (outcome?_spawn w p t).trans h⟩

/-! ## Steps -/

/-- What may happen while nobody calls: the others change the account, a task takes a step, or a task
that is done ends, if `may` admits such an outcome. A task is told that it is cancelled only if it is. -/
inductive Step (R : Others) (may : Account → RunOutcome → Prop) : Ensemble → Ensemble → Prop
  | others {w : Ensemble} {a : Account} (h : R.may w.account a) : Step R may w { w with account := a }
  | works {w : Ensemble} {t : TaskId} {c : Bool} {p q : Program RunOutcome} {es : List Event} {a : Account}
      (ht : w.tasks[t]? = some (.alive c p)) (hs : Program.Step R p w.account es q a)
      (hc : c = false → .cancelled ∉ es) :
      Step R may w { account := a, tasks := w.tasks.set t (.alive c q) }
  | ends {w : Ensemble} {t : TaskId} {c : Bool} {o : RunOutcome}
      (ht : w.tasks[t]? = some (.alive c (.done o))) (ho : may w.account o) :
      Step R may w { w with tasks := w.tasks.set t (.ended o) }

/-- Any number of steps. -/
abbrev Reaches (R : Others) (may : Account → RunOutcome → Prop) : Ensemble → Ensemble → Prop :=
  Relation.ReflTransGen (Step R may)

variable {R : Others} {may : Account → RunOutcome → Prop}

theorem getElem?_set {tasks : List Task} {task : Task} (h : tasks[t]? = some task) (task' : Task)
    (t' : TaskId) : (tasks.set t task')[t']? = if t = t' then some task' else tasks[t']? := by
  rw [List.getElem?_set, if_pos (List.getElem?_eq_some_iff.1 h).1]

theorem later_set {task task' : Task} {a : Account} (ht : w.tasks[t]? = some task)
    (h : ∀ o, task ≠ .ended o) : w.Later { account := a, tasks := w.tasks.set t task' } := by
  refine ⟨by simp, fun t' o ho => ?_⟩
  rw [outcome?_eq_some_iff] at ho ⊢
  rw [getElem?_set ht, if_neg, ho]
  rintro rfl
  rw [ht] at ho
  cases ho
  exact h o rfl

theorem Step.later (h : Step R may w w') : w.Later w' := by
  cases h with
  | others _ => exact later_account w _
  | works ht _ _ => exact later_set ht nofun
  | ends ht _ => exact later_set ht nofun

theorem Reaches.later (h : Reaches R may w w') : w.Later w' := by
  induction h with
  | refl => exact .refl w
  | tail _ hs ih => exact ih.trans hs.later

/-- Tasks are not started by steps. -/
theorem Step.length (h : Step R may w w') : w'.tasks.length = w.tasks.length := by
  cases h <;> simp

theorem Reaches.length (h : Reaches R may w w') : w'.tasks.length = w.tasks.length := by
  induction h with
  | refl => rfl
  | tail _ hs ih => exact hs.length.trans ih

/-- A task that is alive was alive before, under the same token. -/
theorem Step.alive {c : Bool} {p : Program RunOutcome} (h : Step R may w w')
    (ht : w'.tasks[t]? = some (.alive c p)) : ∃ q, w.tasks[t]? = some (.alive c q) := by
  cases h with
  | others _ => exact ⟨p, ht⟩
  | works ht' _ _ =>
    rw [getElem?_set ht'] at ht
    split at ht
    · next heq =>
      subst heq
      cases ht
      exact ⟨_, ht'⟩
    · exact ⟨p, ht⟩
  | ends ht' _ =>
    rw [getElem?_set ht'] at ht
    split at ht
    · cases ht
    · exact ⟨p, ht⟩

theorem Reaches.alive {c : Bool} {p : Program RunOutcome} (h : Reaches R may w w')
    (ht : w'.tasks[t]? = some (.alive c p)) : ∃ q, w.tasks[t]? = some (.alive c q) := by
  induction h generalizing p with
  | refl => exact ⟨p, ht⟩
  | tail _ hs ih =>
    obtain ⟨q, hq⟩ := hs.alive ht
    exact ih hq

theorem Reaches.lives (h : Reaches R may w w') (ht : w'.Lives t) : w.Lives t := by
  obtain ⟨c, p, ht⟩ := ht
  obtain ⟨q, hq⟩ := h.alive ht
  exact ⟨c, q, hq⟩

/-- A run of a task is made of steps. -/
theorem reaches_of_run {p q : Program RunOutcome} {c : Bool} {es : List Event} {a b : Account}
    (tasks : List Task) (t : TaskId) (h : Program.Run R p a es q b) (ht : tasks[t]? = some (.alive c p))
    (hc : c = false → .cancelled ∉ es) :
    Reaches R may ⟨a, tasks⟩ ⟨b, tasks.set t (.alive c q)⟩ := by
  induction h generalizing tasks with
  | @stop p a b h =>
    obtain ⟨hlt, hget⟩ := List.getElem?_eq_some_iff.1 ht
    have hsame : tasks.set t (.alive c p) = tasks := by rw [← hget, List.set_getElem_self]
    have hothers : Step R may ⟨a, tasks⟩ ⟨b, tasks⟩ := Step.others h
    rw [hsame]
    exact .single hothers
  | @step p p' _ a a₁ a₂ _ es _ h hs _ ih =>
    have hset : (tasks.set t (.alive c p'))[t]? = some (.alive c p') :=
      List.getElem?_set_self (List.getElem?_eq_some_iff.1 ht).1
    have hothers : Step R may ⟨a, tasks⟩ ⟨a₁, tasks⟩ := Step.others h
    have hworks : Step R may ⟨a₁, tasks⟩ ⟨a₂, tasks.set t (.alive c p')⟩ :=
      Step.works ht hs fun hc' he => hc hc' (List.mem_append_left _ he)
    have hrest := ih _ hset fun hc' he => hc hc' (List.mem_append_right _ he)
    rw [List.set_set] at hrest
    exact .head hothers (.head hworks hrest)

/-- A finished run of a task is made of steps, the last of which is its end. -/
theorem reaches_end_of_run {p : Program RunOutcome} {c : Bool} {es : List Event} {a b : Account}
    (tasks : List Task) (t : TaskId) (h : Program.Run R p a es (.done o) b)
    (ht : tasks[t]? = some (.alive c p))
    (hc : c = false → .cancelled ∉ es) (ho : may b o) :
    Reaches R may ⟨a, tasks⟩ ⟨b, tasks.set t (.ended o)⟩ := by
  have hend : Step R may ⟨b, tasks.set t (.alive c (.done o))⟩ ⟨b, tasks.set t (.ended o)⟩ := by
    have hs := Step.ends (R := R) (w := ⟨b, tasks.set t (.alive c (.done o))⟩) (t := t)
      (by rw [getElem?_set ht, if_pos rfl]) ho
    rwa [List.set_set] at hs
  exact (reaches_of_run tasks t h ht hc).tail hend

end Ensemble

end Telebridge
