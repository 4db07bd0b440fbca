import Telebridge.Proofs.Account.AuthSignal
import Telebridge.Proofs.Call.Pipeline
import Telebridge.Proofs.Program.Turns
import Telebridge.Session.Watch
set_option autoImplicit false

/-! # Steps of the watch

The watch shares the sign-in signal with activities that sign users in and out at any moment.
`Watch.Effect` says what each of its steps makes of its stage and of the signal, between transitions of
the others: every complete step has its effect (`step_effect`), and every effect is that of a step
(`Effect.exists_run`). So what the watch goes through can be followed on the signal alone. -/

namespace Telebridge.Watch

open Program

/-- The others may sign users in and out, and do anything to the rest of the account. -/
def transitions : Others where
  may a b := AuthSignal.Moves a.signal b.signal
  refl _ := .refl
  trans h h' := h.trans h'

/-! ## What the watch does -/

/-- An event of the watch: it calls the server, pauses, and may be cancelled. -/
inductive Watched : Event → Prop
  | called (request : Request) (b : Except CallError Reply) : Watched (.answered (.call request) b)
  | handled (updates : Updates) (o : Except InboundError Unit) : Watched (.dispatched updates o)
  | paused (ms : Nat) (how : Pause) : Watched (.paused ms how)
  | cancelled : Watched .cancelled

/-- The subscription that the watch has, unless it is about to change that. -/
def Stage.reading? : Stage → Option SubscriptionId
  | .listening sub _ | .signedIn sub _ | .outdated sub _ | .reading sub _ | .signedOut sub => some sub
  | .unsubscribed _ | .leaving _ => none

/-- Whatever the watch does to the account is allowed. -/
structure Tolerates (G : Others) : Prop where
  learn : ∀ request answer a, G.may a (Pipeline.learn request answer a)
  purge : ∀ a, G.may a { a with peers := a.peers.purge }
  take : ∀ sub a, G.may a { a with signal := (a.signal.take sub).2 }
  subscribe : ∀ a, G.may a { a with signal := a.signal.subscribe.2 }
  unsubscribe : ∀ sub a, G.may a { a with signal := a.signal.unsubscribe sub }

section

variable {R G : Others} {heard : Event → Prop}

theorem conforms_dialogTurn (hR : ∀ a b, R.may a b → G.may a b)
    (hlearn : ∀ request answer, heard (.answered (.call request) answer) →
      ∀ a, G.may a (Pipeline.learn request answer a))
    (limit offset : Int32) : (DialogSync.turn limit offset).Conforms R G heard Watched := by
  refine conforms_call_bind hR .handled fun answer hanswer =>
    ⟨.called _ answer, hlearn _ answer hanswer, ?_⟩
  split
  · split <;> exact conforms_done _
  · split
    · exact conforms_done _
    · refine Conforms.bind (conforms_pause (.paused _)) fun how => ?_
      cases how <;> exact conforms_done _

/-- Reading all dialogs does nothing but learn from the server's answers. -/
theorem conforms_dialogSync (hR : ∀ a b, R.may a b → G.may a b)
    (hlearn : ∀ request answer, heard (.answered (.call request) answer) →
      ∀ a, G.may a (Pipeline.learn request answer a)) :
    DialogSync.run.Conforms R G heard Watched :=
  conforms_read.bind fun limit => conforms_iterate (conforms_dialogTurn hR hlearn limit)

/-- Whoever waits for an event does nothing but take it. -/
theorem conforms_nextEvent {shown : Event → Prop} {sub : SubscriptionId}
    (hG : ∀ a, G.may a { a with signal := (a.signal.take sub).2 }) :
    (nextEvent sub).Conforms R G heard shown := by
  refine conforms_await fun a r b h => ?_
  rw [AuthSignal.receive_eq] at h
  split at h
  · next he =>
    cases h
    exact (Prod.mk.inj he).2 ▸ hG a
  · next he =>
    cases h
    exact (Prod.mk.inj he).2 ▸ hG a
  · cases h

/-- A step that reads the subscription learns from answers, purges the directory, and takes what is
pending. -/
theorem conforms_step_of_reading {stage : Stage} {sub : SubscriptionId}
    (hR : ∀ a b, R.may a b → G.may a b)
    (hlearn : ∀ request answer, heard (.answered (.call request) answer) →
      ∀ a, G.may a (Pipeline.learn request answer a))
    (hpurge : ∀ a, G.may a { a with peers := a.peers.purge })
    (htake : ∀ a, G.may a { a with signal := (a.signal.take sub).2 })
    (h : stage.reading? = some sub) : (step stage).Conforms R G heard Watched := by
  have hforget : purge.Conforms R G heard Watched := conforms_update hpurge
  cases stage with
  | listening sub synced =>
    cases h
    refine Conforms.bind (conforms_unlessCancelled (conforms_nextEvent htake) .cancelled)
      fun event => ?_
    cases event <;> exact conforms_done _
  | signedIn sub synced => exact conforms_read.bind fun _ => conforms_done _
  | outdated sub g => exact hforget.bind fun _ => conforms_done _
  | reading sub g => exact (conforms_dialogSync hR hlearn).bind fun _ => conforms_done _
  | signedOut sub => exact hforget.bind fun _ => conforms_done _
  | unsubscribed synced => cases h
  | leaving sub => cases h

/-- No step of the watch does more than is tolerated. -/
theorem conforms_step (hR : ∀ a b, R.may a b → G.may a b) (hG : Tolerates G) (stage : Stage) :
    (step stage).Conforms R G heard Watched := by
  have hreading {sub : SubscriptionId} (h : stage.reading? = some sub) :
      (step stage).Conforms R G heard Watched :=
    conforms_step_of_reading hR (fun _ _ _ => hG.learn _ _) hG.purge (hG.take sub) h
  cases stage with
  | unsubscribed synced =>
    refine Conforms.bind (conforms_await fun a sub b h => ?_) fun _ => conforms_done _
    cases h
    exact hG.subscribe a
  | leaving sub => exact Conforms.bind (conforms_update (hG.unsubscribe sub)) fun _ => conforms_done _
  | _ => exact hreading rfl

/-- Neither does the whole watch. -/
theorem conforms_run (hR : ∀ a b, R.may a b → G.may a b) (hG : Tolerates G) :
    Watch.run.Conforms R G heard Watched := by
  have hsubscribe : subscribe.Conforms R G heard Watched := by
    refine conforms_await fun a sub b h => ?_
    cases h
    exact hG.subscribe a
  exact hsubscribe.bind fun _ => conforms_iterate (conforms_step hR hG)

end

theorem moves_learn (request : Request) (answer : Except CallError Reply) (a : Account) :
    transitions.may a (Pipeline.learn request answer a) := by
  cases answer with
  | error e =>
    simp only [Pipeline.learn]
    split
    · exact .single .reset
    · exact .refl
  | ok reply => exact .refl

/-! ## Steps -/

/-- Whatever is done keeps the signal well-formed. -/
def orderly : Others where
  may a b := a.signal.WellFormed → b.signal.WellFormed
  refl _ := id
  trans h h' := h' ∘ h

theorem orderly_of_transitions (a b : Account) (h : transitions.may a b) : orderly.may a b :=
  AuthSignal.Moves.wellFormed h

/-- What a step makes of a stage and of the signal, between transitions. -/
inductive Effect : Stage → AuthSignal → Stage → AuthSignal → Prop
  | cancel {sub : SubscriptionId} {synced : Option Nat} {s s' : AuthSignal}
      (h : s.WellFormed → s'.WellFormed) : Effect (.listening sub synced) s (.leaving sub) s'
  | deliver {sub : SubscriptionId} {synced : Option Nat} {s : AuthSignal}
      (h : (s.mailbox sub).pending = none → (s.mailbox sub).closed) :
      Effect (.listening sub synced) s (afterDelivery sub synced (s.mailbox sub).pending)
        (s.take sub).2
  | count {sub : SubscriptionId} {synced : Option Nat} {s : AuthSignal} :
      Effect (.signedIn sub synced) s (afterSignIns sub synced s.signIns) s
  | forget {sub : SubscriptionId} {g : Nat} {s : AuthSignal} :
      Effect (.outdated sub g) s (.reading sub g) s
  | read {sub : SubscriptionId} {g : Nat} {s : AuthSignal} :
      Effect (.reading sub g) s (.listening sub (some g)) s
  | clear {sub : SubscriptionId} {s : AuthSignal} :
      Effect (.signedOut sub) s (.listening sub none) s
  | resubscribe {synced : Option Nat} {s : AuthSignal} :
      Effect (.unsubscribed synced) s (.listening s.subscribe.1 synced) s.subscribe.2

theorem Effect.wellFormed {stage stage' : Stage} {s s' : AuthSignal} (h : Effect stage s stage' s')
    (hs : s.WellFormed) : s'.WellFormed := by
  cases h with
  | cancel h => exact h hs
  | deliver _ => exact hs.take _
  | count => exact hs
  | forget => exact hs
  | read => exact hs
  | clear => exact hs
  | resubscribe => exact hs.subscribe

/-- A watch stops waiting with what is pending, or at the end of a closed mailbox. -/
theorem nextEvent_done {R : Others} {sub : SubscriptionId} {r : Option AuthEvent} {a b : Account}
    {t : List Event} (h : Run R (nextEvent sub) a t (.done r) b) :
    ∃ a₁, R.may a a₁ ∧ R.may { a₁ with signal := (a₁.signal.take sub).2 } b ∧
      (a₁.signal.mailbox sub).pending = r ∧
      ((a₁.signal.mailbox sub).pending = none → (a₁.signal.mailbox sub).closed) := by
  obtain ⟨-, a₁, a₂, ha, hf, hb⟩ := h.await_done
  refine ⟨a₁, ha, ?_⟩
  rw [AuthSignal.receive_eq] at hf
  cases hp : (a₁.signal.mailbox sub).pending with
  | some e =>
    simp only [hp, Option.some.injEq, Prod.mk.injEq] at hf
    obtain ⟨rfl, rfl⟩ := hf
    exact ⟨hb, rfl, fun h => by cases h⟩
  | none =>
    simp only [hp] at hf
    split at hf
    · next he => split at he <;> cases he
    · next he =>
      simp only [Option.some.injEq, Prod.mk.injEq] at hf
      obtain ⟨rfl, rfl⟩ := hf
      refine ⟨(Prod.mk.inj he).2 ▸ hb, rfl, fun _ => ?_⟩
      split at he
      · assumption
      · cases he
    · cases hf

/-- What a complete step does. -/
theorem step_effect {stage stage' : Stage} {a b : Account} {t : List Event}
    (hr : Run transitions (step stage) a t (.done (.inl stage')) b) :
    ∃ s s', AuthSignal.Moves a.signal s ∧ Effect stage s stage' s' ∧
      AuthSignal.Moves s' b.signal := by
  cases stage with
  | listening sub synced =>
    obtain ⟨o, _, _, a₁, -, ho, hr⟩ := Run.bind_done hr
    cases o with
    | none =>
      obtain ⟨-, hx, hb⟩ := hr.done_inv
      cases hx
      -- the event may have been taken before the session was found to be cancelled
      have hs := (ho.conforms orderly_of_transitions
        (conforms_unlessCancelled (conforms_nextEvent fun a hs => hs.take sub) Watched.cancelled)
        fun _ _ => trivial).1
      exact ⟨_, _, .refl, .cancel hs, hb⟩
    | some event =>
      obtain ⟨-, hx, hb⟩ := hr.done_inv
      cases hx
      obtain ⟨u, hu⟩ := ho.unlessCancelled_done
      obtain ⟨a₂, ha₂, hm, rfl, hclosed⟩ := nextEvent_done hu
      exact ⟨_, _, ha₂, .deliver hclosed, transitions.trans hm hb⟩
  | signedIn sub synced =>
    obtain ⟨n, _, _, a₁, -, hn, hr⟩ := Run.bind_done hr
    obtain ⟨-, hx, hb⟩ := hr.done_inv
    cases hx
    obtain ⟨-, a₂, ha₂, rfl, ha₁⟩ := hn.read_done
    exact ⟨_, _, ha₂, .count, ha₁.trans hb⟩
  | outdated sub g =>
    obtain ⟨_, _, _, a₁, -, hpurge, hr⟩ := Run.bind_done hr
    obtain ⟨-, hx, hb⟩ := hr.done_inv
    cases hx
    obtain ⟨-, a₂, ha₂, ha₁⟩ := hpurge.update_done
    exact ⟨_, _, ha₂, .forget, ha₁.trans hb⟩
  | reading sub g =>
    obtain ⟨_, _, _, a₁, -, hsync, hr⟩ := Run.bind_done hr
    obtain ⟨-, hx, hb⟩ := hr.done_inv
    cases hx
    have hm := (hsync.conforms (fun _ _ h => h) (conforms_dialogSync (fun _ _ h => h) fun _ _ _ => moves_learn _ _)
      fun _ _ => trivial).1
    exact ⟨_, _, hm, .read, hb⟩
  | signedOut sub =>
    obtain ⟨_, _, _, a₁, -, hpurge, hr⟩ := Run.bind_done hr
    obtain ⟨-, hx, hb⟩ := hr.done_inv
    cases hx
    obtain ⟨-, a₂, ha₂, ha₁⟩ := hpurge.update_done
    exact ⟨_, _, ha₂, .clear, ha₁.trans hb⟩
  | unsubscribed synced =>
    obtain ⟨sub, _, _, a₁, -, hsub, hr⟩ := Run.bind_done hr
    obtain ⟨-, hx, hb⟩ := hr.done_inv
    cases hx
    obtain ⟨-, a₂, a₃, ha₂, hf, ha₃⟩ := hsub.await_done
    simp only [Option.some.injEq, Prod.mk.injEq] at hf
    obtain ⟨rfl, rfl⟩ := hf
    exact ⟨_, _, ha₂, .resubscribe, ha₃.trans hb⟩
  | leaving sub =>
    obtain ⟨_, _, _, a₁, -, -, hr⟩ := Run.bind_done hr
    cases hr.done_inv.2.1

/-! ## Every effect can be had -/

/-- A server that does not answer ends the reading of dialogs at once. -/
theorem exists_run_dialogSync (a : Account) :
    ∃ t, Run transitions DialogSync.run a t (.done ()) a := by
  have hread : Run transitions (read fun a => a.config.dialogsPage) a []
      (.done a.config.dialogsPage) a := .of_await rfl
  let request : DialogQuery := { offsetDate := 0, limit := a.config.dialogsPage }
  have hturn : Run transitions (DialogSync.turn a.config.dialogsPage 0) a
      [.answered (.call (.getDialogs request)) (.error .dropped)] (.done (.inr ())) a :=
    .single ⟨.error .dropped, ⟨rfl, rfl⟩, rfl⟩
  exact ⟨_, hread.bind (Run.iterate_done hturn)⟩

/-- What is pending, or the end of a closed mailbox, can be taken. -/
theorem run_nextEvent {sub : SubscriptionId} {a : Account}
    (h : (a.signal.mailbox sub).pending = none → (a.signal.mailbox sub).closed) :
    Run transitions (nextEvent sub) a [] (.done (a.signal.mailbox sub).pending)
      { a with signal := (a.signal.take sub).2 } := by
  refine .of_await ?_
  rw [AuthSignal.receive_eq]
  cases hp : (a.signal.mailbox sub).pending with
  | some e => rfl
  | none => simp only [h hp, if_true]

/-- Every effect other than that of a cancelled session is that of a step. -/
theorem Effect.exists_run {stage stage' : Stage} {a : Account} {s' : AuthSignal}
    (h : Effect stage a.signal stage' s') (hstay : ∀ sub, stage' ≠ .leaving sub) :
    ∃ t b, Run transitions (step stage) a t (.done (.inl stage')) b ∧ b.signal = s' := by
  generalize hs : a.signal = s at h
  cases h with
  | @cancel sub _ _ _ _ => exact absurd rfl (hstay sub)
  | deliver hclosed =>
    subst hs
    have hevent : Run transitions (unlessCancelled (nextEvent _)) a []
        (.done (some (a.signal.mailbox _).pending)) _ := Run.race_right_done (run_nextEvent hclosed)
    exact ⟨_, _, hevent.bind (.refl _ _), rfl⟩
  | count =>
    subst hs
    have hread : Run transitions (Program.read fun a => a.signal.signIns) a []
        (.done a.signal.signIns) a := .of_await rfl
    exact ⟨_, _, hread.bind (.refl _ _), rfl⟩
  | forget =>
    have hpurge : Run transitions purge a [] (.done ()) { a with peers := a.peers.purge } :=
      .of_await rfl
    exact ⟨_, _, hpurge.bind (.refl _ _), hs⟩
  | read =>
    obtain ⟨t, hsync⟩ := exists_run_dialogSync a
    exact ⟨_, _, hsync.bind (.refl _ _), hs⟩
  | clear =>
    have hpurge : Run transitions purge a [] (.done ()) { a with peers := a.peers.purge } :=
      .of_await rfl
    exact ⟨_, _, hpurge.bind (.refl _ _), hs⟩
  | resubscribe =>
    subst hs
    have hsub : Run transitions subscribe a [] (.done a.signal.subscribe.1)
        { a with signal := a.signal.subscribe.2 } := .of_await rfl
    exact ⟨_, _, hsub.bind (.refl _ _), rfl⟩

end Telebridge.Watch
