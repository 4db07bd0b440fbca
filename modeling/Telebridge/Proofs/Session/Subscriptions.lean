import Telebridge.Proofs.Session.Ending
import Telebridge.Proofs.Session.Restart
set_option autoImplicit false

/-! # Subscriptions that are left behind

A session subscribes to the sign-in signal once it has become ready, and gives the subscription up when
it is cancelled. If driving the connection ends first, what the session does is abandoned wherever it
stands, and then the subscription stays (`subscribers_after_run`). Nobody reads it any more, and as long
as nobody signs in or out nobody notices: every such run leaves one more subscriber
(`subscribers_after_cycles`). -/

namespace Telebridge

/-! ## The course of a subscription -/

namespace AuthSignal

variable {s s' s'' : AuthSignal} {subscribed : Bool}

/-- What becomes of a signal to which nothing is announced, while one activity subscribes and gives its
subscription up again. The flag tells whether it is subscribed. -/
inductive Course (s : AuthSignal) : Bool → AuthSignal → Prop
  | before {s' : AuthSignal} (h : s.Steady s') : Course s false s'
  | during {s₁ s' : AuthSignal} (h : s.Steady s₁) (h' : s₁.subscribe.2.Steady s') : Course s true s'
  | after {s₁ s₂ s' : AuthSignal} (h : s.Steady s₁) (h' : s₁.subscribe.2.Steady s₂)
      (h'' : (s₂.unsubscribe s₁.mailboxes.length).Steady s') : Course s false s'

theorem Course.after_steady (h : s.Steady s') (h' : Course s' subscribed s'') :
    Course s subscribed s'' := by
  cases h' with
  | before h₁ => exact .before (h.trans h₁)
  | during h₁ h₂ => exact .during (h.trans h₁) h₂
  | after h₁ h₂ h₃ => exact .after (h.trans h₁) h₂ h₃

theorem Course.before_steady (h : Course s subscribed s') (h' : s'.Steady s'') :
    Course s subscribed s'' := by
  cases h with
  | before h₁ => exact .before (h₁.trans h')
  | during h₁ h₂ => exact .during h₁ (h₂.trans h')
  | after h₁ h₂ h₃ => exact .after h₁ h₂ (h₃.trans h')

theorem Course.wellFormed (h : Course s subscribed s') (hs : s.WellFormed) : s'.WellFormed := by
  cases h with
  | before h₁ => exact h₁.wellFormed hs
  | during h₁ h₂ => exact h₂.wellFormed (h₁.wellFormed hs).subscribe
  | after h₁ h₂ h₃ =>
    exact h₃.wellFormed ((h₂.wellFormed (h₁.wellFormed hs).subscribe).unsubscribe _)

/-- The number of the next subscription is not taken. -/
theorem WellFormed.length_notMem (hs : s.WellFormed) : s.mailboxes.length ∉ s.subscribers :=
  fun hmem => Nat.lt_irrefl _ (lt_of_open ((hs.registered _).1 hmem))

/-- Whoever is subscribed is the last subscriber, and whoever is not has left no trace. -/
theorem Course.subscribers (h : Course s subscribed s') (hs : s.WellFormed) :
    s'.subscribers = if subscribed then s.subscribers ++ [s.mailboxes.length] else s.subscribers := by
  have hsubscribe {s₁ : AuthSignal} (h₁ : s.Steady s₁) :
      s₁.subscribe.2.subscribers = s.subscribers ++ [s.mailboxes.length] := by
    rw [← h₁.subscribers, ← h₁.length]
    rfl
  cases h with
  | before h₁ => exact h₁.subscribers
  | during h₁ h₂ => exact h₂.subscribers.trans (hsubscribe h₁)
  | @after s₁ s₂ _ h₁ h₂ h₃ =>
    have hrest : s.subscribers.filter (· != s.mailboxes.length) = s.subscribers :=
      List.filter_eq_self.2 fun id hid => bne_iff_ne.2 fun heq => hs.length_notMem (heq ▸ hid)
    rw [h₃.subscribers, unsubscribe, h₂.subscribers, hsubscribe h₁, h₁.length, List.filter_append,
      hrest]
    simp

end AuthSignal

namespace Session

open Program AuthSignal

variable {a b c : Account} {t : List Event}

/-! ## Nothing announced -/

/-- The others announce nothing. -/
def steady : Others where
  may a b := a.signal.Steady b.signal
  refl a := .refl a.signal
  trans := .trans

/-- Nothing is announced while `user` is signed in, or nobody. -/
def steadyWith (user : Option User) : Others where
  may a b := a.signal.user = user → a.signal.Steady b.signal
  refl a _ := .refl a.signal
  trans h h' huser := (h huser).trans (h' ((h huser).user.trans huser))

theorem steady_of_eq (h : b.signal = a.signal) : steady.may a b := by
  show a.signal.Steady b.signal
  rw [h]
  exact .refl _

/-- An answer of the server that a session announces to the subscribers: it names who is signed in, or it
takes the authorization away from the user who is. -/
def Announces (user : Option User) : Event → Prop
  | .answered (.call request) answer =>
    (request = .getUsers [.self] ∧
      ∃ u, whoIs (Pipeline.outcome (.getUsers [.self]) answer) = .ok (some u)) ∨
    user.isSome ∧ ∃ e, answer = .error e ∧ e.isUnauthorized
  | _ => False

theorem steadyWith_learn {user : Option User} {request : Request} {answer : Except CallError Reply}
    (h : ¬ Announces user (.answered (.call request) answer)) (a : Account) :
    (steadyWith user).may a (Pipeline.learn request answer a) := by
  intro huser
  cases answer with
  | ok reply => exact .refl _
  | error e =>
    simp only [Pipeline.learn]
    split
    · next he =>
      have hnobody : ¬ a.signal.user.isSome := fun hsome => h (.inr ⟨huser ▸ hsome, e, rfl, he⟩)
      simp only [reset, if_neg hnobody]
      exact .refl _
    · exact .refl _

/-! ## What a session does to the signal -/

/-- Until a session reports that it is ready it announces nothing, and does not subscribe. -/
theorem conforms_readying (user : Option User) : (claiming.bind restored).Conforms steady
    (steadyWith user) (fun e => ¬ Announces user e) SparesBackup := by
  have hsame (a b : Account) (h : b.signal = a.signal) : (steadyWith user).may a b :=
    fun _ => steady_of_eq h
  have hopening : opening.Conforms steady (steadyWith user) (fun e => ¬ Announces user e)
      SparesBackup :=
    conforms_opening_of_heard (fun _ _ h _ => h) (fun _ hb u hu => absurd (.inl ⟨rfl, u, hu⟩) hb)
      fun _ hb => steadyWith_learn hb
  have hannounce : announce.Conforms steady (steadyWith user) (fun e => ¬ Announces user e)
      SparesBackup := conforms_announce fun _ _ _ _ => hsame _ _
  refine (conforms_claiming_of_opening hopening fun _ => hsame _ _ rfl).bind fun claim => ?_
  cases claim with
  | unconnected => exact conforms_done _
  | noTokens => exact hannounce
  | tokens flow => exact Conforms.bind (conforms_update fun _ => hsame _ _ rfl) fun _ => hannounce

/-- Neither does it while it ends. -/
theorem conforms_conclude (o : LinkExit ⊕ Except SessionError Unit) {heard : Event → Prop} :
    (conclude o).Conforms steady steady heard fun _ => True := by
  have hwrap (result : Except SessionError Unit) :
      (wrapUp result).Conforms steady steady heard fun _ => True :=
    Conforms.bind (conforms_update fun _ => steady_of_eq rfl) fun _ =>
      (conforms_shield (conforms_persist (fun _ _ => steady_of_eq rfl) fun _ _ => steady_of_eq rfl)).bind
        fun _ => conforms_done _
  rcases o with (result | _) | result
  · exact hwrap _
  · exact Conforms.bind (conforms_update fun _ => steady_of_eq rfl) fun _ => conforms_done _
  · exact hwrap _

/-! ## The watch -/

/-- The watch keeps its subscription, or is about to leave, or has found its mailbox closed. -/
theorem gives_step {stage : Watch.Stage} {sub : SubscriptionId} (h : stage.reading? = some sub) :
    (Watch.step stage).Gives fun o => ∃ stage', o = .inl stage' ∧
      (stage'.reading? = some sub ∨ stage' = .leaving sub ∨
        (∃ synced, stage = .listening sub synced) ∧ ∃ synced, stage' = .unsubscribed synced) := by
  cases stage with
  | listening sub synced =>
    cases h
    refine gives_bind fun event => ?_
    rcases event with _ | _ | user | _
    · exact ⟨_, rfl, .inr (.inl rfl)⟩
    · exact ⟨_, rfl, .inr (.inr ⟨⟨synced, rfl⟩, synced, rfl⟩)⟩
    · exact ⟨_, rfl, .inl rfl⟩
    · cases synced <;> exact ⟨_, rfl, .inl rfl⟩
  | signedIn sub synced =>
    cases h
    refine gives_bind fun n => ⟨_, rfl, .inl ?_⟩
    simp only [Watch.afterSignIns]
    split
    · rfl
    · split <;> rfl
  | outdated sub g =>
    cases h
    exact gives_bind fun _ => ⟨_, rfl, .inl rfl⟩
  | reading sub g =>
    cases h
    exact gives_bind fun _ => ⟨_, rfl, .inl rfl⟩
  | signedOut sub =>
    cases h
    exact gives_bind fun _ => ⟨_, rfl, .inl rfl⟩
  | unsubscribed synced => cases h
  | leaving sub => cases h

/-- As long as nothing is announced, the watch does not find its mailbox closed. -/
theorem step_ne_unsubscribed {sub : SubscriptionId} {synced synced' : Option Nat}
    (hopen : (a.signal.mailbox sub).closed = false) :
    ¬ Run steady (Watch.step (.listening sub synced)) a t
      (.done (.inl (.unsubscribed synced'))) b := by
  intro h
  obtain ⟨o, _, _, a₁, -, ho, h₁⟩ := Run.bind_done h
  rcases o with _ | event
  · cases h₁.done_inv.2.1
  · obtain ⟨w, hw⟩ := ho.unlessCancelled_done
    obtain ⟨a₂, ha₂, -, rfl, hclosed⟩ := Watch.nextEvent_done hw
    cases hp : (a₂.signal.mailbox sub).pending with
    | none =>
      have hstays : (a₂.signal.mailbox sub).closed = (a.signal.mailbox sub).closed := ha₂.closed sub
      rw [hclosed hp, hopen] at hstays
      cases hstays
    | some e =>
      rw [hp] at h₁
      rcases e with user | _
      · cases h₁.done_inv.2.1
      · cases synced <;> cases h₁.done_inv.2.1

/-- A step that reads the subscription announces nothing, and subscribes to nothing. -/
theorem step_steady {stage : Watch.Stage} {sub : SubscriptionId} {q : Program (Watch.Stage ⊕ Unit)}
    (hstage : stage.reading? = some sub) (h : Run steady (Watch.step stage) a t q b)
    (ht : ∀ e ∈ t, ¬ Announces a.signal.user e) : a.signal.Steady b.signal := by
  have hstep : (Watch.step stage).Conforms steady (steadyWith a.signal.user)
      (fun e => ¬ Announces a.signal.user e) Watch.Watched :=
    Watch.conforms_step_of_reading (fun _ _ h _ => h) (fun _ _ hb => steadyWith_learn hb)
      (fun _ _ => .refl _) (fun a _ => steady_take a.signal sub) hstage
  exact (h.conforms (fun _ _ h _ => h) hstep ht).1 rfl

/-- The last step gives the subscription up. -/
theorem leaving_cases {sub : SubscriptionId} {q : Program (Watch.Stage ⊕ Unit)}
    (h : Run steady (Watch.step (.leaving sub)) a t q b) :
    (a.signal.Steady b.signal ∧ ∀ o, q ≠ .done o) ∨
      q = .done (.inr ()) ∧ ∃ s, a.signal.Steady s ∧ (s.unsubscribe sub).Steady b.signal := by
  obtain ⟨p, hp, rfl⟩ | ⟨_, t₁, t₂, a₁, rfl, hp, hrest⟩ := Run.bind_cases h
  · obtain ⟨-, ⟨rfl, hb⟩ | ⟨_, a₂, a₃, rfl, ha₂, hf, hb⟩⟩ := hp.await_cases
    · exact .inl ⟨hb, nofun⟩
    · cases hf
      exact .inr ⟨rfl, _, ha₂, hb⟩
  · obtain ⟨-, a₂, ha₂, ha₁⟩ := hp.update_done
    obtain ⟨-, rfl, hb⟩ := hrest.done_inv
    exact .inr ⟨rfl, _, ha₂, ha₁.trans hb⟩

/-- The watch stands at a stage with the subscription that it made on the signal `s`, and nothing was
announced since. -/
def Listens (s : AuthSignal) (stage : Watch.Stage) (a : Account) : Prop :=
  (stage.reading? = some s.mailboxes.length ∨ stage = .leaving s.mailboxes.length) ∧
    s.subscribe.2.Steady a.signal

/-- The watch keeps its subscription from turn to turn. -/
theorem Listens.turn {s : AuthSignal} {stage stage' : Watch.Stage} (hlistens : Listens s stage a)
    (h : Run steady (Watch.step stage) a t (.done (.inl stage')) b)
    (ht : ∀ e ∈ t, ¬ Announces s.user e) : Listens s stage' b := by
  obtain ⟨hreading | rfl, ha⟩ := hlistens
  · have huser : a.signal.user = s.user := ha.user
    refine ⟨?_, ha.trans (step_steady hreading h (huser ▸ ht))⟩
    obtain ⟨stage'', ho, hnext | rfl | ⟨⟨synced, rfl⟩, synced', rfl⟩⟩ := h.gives (gives_step hreading)
    · cases ho
      exact .inl hnext
    · cases ho
      exact .inr rfl
    · cases ho
      cases hreading
      have hopen : (a.signal.mailbox s.mailboxes.length).closed = false := by
        rw [ha.closed, mailbox_subscribe, if_pos rfl]
      exact absurd h (step_ne_unsubscribed hopen)
  · obtain ⟨-, hne⟩ | ⟨hq, -⟩ := leaving_cases h
    · exact absurd rfl (hne _)
    · cases hq

/-- From its subscription on the watch is subscribed until its last step. -/
theorem listening_course {s : AuthSignal} {q : Program Unit}
    (h : Run steady (iterate (.listening s.mailboxes.length none) Watch.step) a t q b)
    (ha : s.subscribe.2.Steady a.signal) (ht : ∀ e ∈ t, ¬ Announces s.user e) :
    ∃ subscribed, Course s subscribed b.signal ∧ ∀ r, q = .done r → subscribed = false := by
  have hothers (stage : Watch.Stage) (a b : Account) (hlistens : Listens s stage a)
      (hb : steady.may a b) : Listens s stage b := ⟨hlistens.1, hlistens.2.trans hb⟩
  have hstart : Listens s (.listening s.mailboxes.length none) a := ⟨.inl rfl, ha⟩
  obtain ⟨stage, ⟨-, hb⟩, rfl⟩ | ⟨stage, x, u, p, ⟨hreading | rfl, hx⟩, hstep, hu, rfl⟩ :=
    h.iterate_invariant hothers (fun _ _ _ _ _ => Listens.turn) hstart ht
  · exact ⟨true, .during (.refl s) hb, nofun⟩
  · have huser : x.signal.user = s.user := hx.user
    have hb := hx.trans (step_steady hreading hstep (huser ▸ hu))
    refine ⟨true, .during (.refl s) hb, fun r hr => ?_⟩
    -- a step that reads the subscription is not the last
    obtain ⟨o, rfl, ho⟩ := exists_of_bind_eq_done hr
    obtain ⟨stage', rfl, -⟩ := hstep.gives (gives_step hreading)
    cases ho
  · obtain ⟨hb, hne⟩ | ⟨rfl, s', hs', hb⟩ := leaving_cases hstep
    · refine ⟨true, .during (.refl s) (hx.trans hb), fun r hr => ?_⟩
      obtain ⟨o, rfl, -⟩ := exists_of_bind_eq_done hr
      exact absurd rfl (hne o)
    · exact ⟨false, .after (.refl s) (hx.trans hs') hb, fun _ _ => rfl⟩

/-- The watch subscribes, and gives its subscription up before it ends. -/
theorem watch_course {q : Program Unit} (h : Run steady Watch.run a t q b)
    (ht : ∀ e ∈ t, ¬ Announces a.signal.user e) :
    ∃ subscribed, Course a.signal subscribed b.signal ∧
      ∀ r, q = .done r → subscribed = false := by
  obtain ⟨p, hp, rfl⟩ | ⟨sub, t₁, t₂, a₁, rfl, hp, hloop⟩ := Run.bind_cases h
  · obtain ⟨-, ⟨rfl, hb⟩ | ⟨sub, a₂, a₃, rfl, ha₂, hf, hb⟩⟩ := hp.await_cases
    · exact ⟨false, .before hb, fun _ _ => rfl⟩
    · cases hf
      exact ⟨true, .during ha₂ hb, nofun⟩
  · obtain ⟨-, a₂, a₃, ha₂, hf, ha₁⟩ := hp.await_done
    cases hf
    have huser : a₂.signal.user = a.signal.user := ha₂.user
    obtain ⟨subscribed, hcourse, hdone⟩ := listening_course hloop ha₁
      fun e he => huser ▸ ht e (List.mem_append_right t₁ he)
    exact ⟨subscribed, hcourse.after_steady ha₂, hdone⟩

/-! ## A run -/

/-- What a session makes of the signal, wherever it stands: it is subscribed, or not, and in the end it is
not. -/
theorem body_course {q : Program (Except SessionError Unit)} (h : Run steady body a t q b)
    (ht : ∀ e ∈ t, ¬ Announces a.signal.user e) :
    ∃ subscribed, Course a.signal subscribed b.signal ∧
      ∀ r, q = .done r → subscribed = false := by
  rw [body_eq_restored] at h
  have hreadying := conforms_readying a.signal.user
  obtain ⟨p, hp, rfl⟩ | ⟨r, t₁, t₂, a₁, rfl, hp, hrest⟩ := Run.bind_cases h
  · exact ⟨false, .before ((hp.conforms (fun _ _ h _ => h) hreadying ht).1 rfl), fun _ _ => rfl⟩
  · have ha₁ : a.signal.Steady a₁.signal :=
      (hp.conforms (fun _ _ h _ => h) hreadying fun e he => ht e (List.mem_append_left t₂ he)).1 rfl
    cases r with
    | error e => exact ⟨false, .before (ha₁.trans hrest.done_inv.2.2), fun _ _ => rfl⟩
    | ok =>
      have ht₂ : ∀ e ∈ t₂, ¬ Announces a₁.signal.user e :=
        fun e he => ha₁.user.symm ▸ ht e (List.mem_append_right t₁ he)
      obtain ⟨p, hp, rfl⟩ | ⟨_, t₃, t₄, a₂, rfl, hp, hrest⟩ := Run.bind_cases hrest
      · obtain ⟨subscribed, hcourse, hdone⟩ := watch_course hp ht₂
        refine ⟨subscribed, hcourse.after_steady ha₁, fun r hr => ?_⟩
        obtain ⟨x, rfl, -⟩ := exists_of_bind_eq_done hr
        exact hdone x rfl
      · obtain ⟨subscribed, hcourse, hdone⟩ :=
          watch_course hp fun e he => ht₂ e (List.mem_append_left t₄ he)
        exact ⟨subscribed, (hcourse.after_steady ha₁).before_steady hrest.done_inv.2.2,
          fun _ _ => hdone () rfl⟩

/-- What the race of a session makes of the signal. If the session is done first, it is not subscribed. -/
theorem race_course {o : LinkExit ⊕ Except SessionError Unit}
    (h : Run steady (either link body) a t (.done o) b)
    (ht : ∀ e ∈ t, ¬ Announces a.signal.user e) :
    ∃ subscribed, Course a.signal subscribed b.signal ∧
      ∀ result, o = .inr result → subscribed = false := by
  have hlink : link.Conforms steady steady (fun _ => True) SparesBackup :=
    conforms_link fun _ _ => steady_of_eq rfl
  obtain ⟨l, q, c, hrace, hb, hside⟩ := h.either_done
  obtain ⟨-, u, hu, hbody⟩ :=
    hrace.right_of_either hlink (fun _ _ => trivial) (fun _ _ h => h) fun _ _ h => h
  obtain ⟨subscribed, hcourse, hdone⟩ := body_course hbody fun e he => ht e (hu.subset he)
  refine ⟨subscribed, hcourse.before_steady hb, fun result ho => ?_⟩
  obtain ⟨x, -, rfl⟩ | ⟨y, rfl, rfl⟩ := hside
  · cases ho
  · exact hdone y rfl

/-- A finished run, with what its race gave, and the account at that moment. -/
def EndsBy (a : Account) (t : List Event) (o : LinkExit ⊕ Except SessionError Unit) (c : Account)
    (outcome : RunOutcome) (b : Account) : Prop :=
  ∃ u v, t = u ++ v ∧ Run steady (either link body) a u (.done o) c ∧
    Run steady (conclude o) c v (.done outcome) b

theorem EndsBy.run {o : LinkExit ⊕ Except SessionError Unit} {outcome : RunOutcome}
    (h : EndsBy a t o c outcome b) : Run steady run a t (.done outcome) b := by
  obtain ⟨u, v, rfl, hrace, hend⟩ := h
  rw [run_eq]
  exact hrace.bind hend

theorem exists_endsBy {outcome : RunOutcome} (h : Run steady run a t (.done outcome) b) :
    ∃ o c, EndsBy a t o c outcome b := by
  rw [run_eq] at h
  obtain ⟨o, u, v, c, rfl, hrace, hend⟩ := h.bind_done
  exact ⟨o, c, u, v, rfl, hrace, hend⟩

/-- The subscription that a run leaves behind: its own, if that is registered at the moment at which driving
the connection was done first. -/
def leftOver (own : SubscriptionId) (s : AuthSignal) :
    LinkExit ⊕ Except SessionError Unit → List SubscriptionId
  | .inl _ => if own ∈ s.subscribers then [own] else []
  | .inr _ => []

/-- A run to which nothing is announced leaves the subscribers as they were, and behind them its own
subscription if it does not get to give it up. -/
theorem subscribers_after_run {o : LinkExit ⊕ Except SessionError Unit} {outcome : RunOutcome}
    (ha : a.signal.WellFormed) (h : EndsBy a t o c outcome b)
    (ht : ∀ e ∈ t, ¬ Announces a.signal.user e) :
    b.signal.WellFormed ∧ b.signal.subscribers =
      a.signal.subscribers ++ leftOver a.signal.mailboxes.length c.signal o := by
  obtain ⟨u, v, rfl, hrace, hend⟩ := h
  obtain ⟨subscribed, hcourse, hdone⟩ :=
    race_course hrace fun e he => ht e (List.mem_append_left v he)
  have hb : c.signal.Steady b.signal :=
    (hend.conforms (fun _ _ h => h) (conforms_conclude o) fun _ _ => trivial).1
  have hc := hcourse.subscribers ha
  refine ⟨hb.wellFormed (hcourse.wellFormed ha), ?_⟩
  rw [hb.subscribers, hc]
  cases o with
  | inr result => simp [leftOver, hdone result rfl]
  | inl exit => cases subscribed <;> simp [leftOver, hc, ha.length_notMem]

/-! ## Starting and stopping again and again -/

/-- The account when a run is launched. -/
def launching (a : Account) : Account :=
  { a with connection := .pending, readiness := .awaited }

/-- Any number of runs, one after the other, without an announcement, and the subscriptions that they leave
behind. In between the others do what they do, starting and stopping included. -/
inductive Cycles (a : Account) : List SubscriptionId → Account → Prop
  | none {b : Account} (h : steady.may a b) : Cycles a [] b
  | run {left : List SubscriptionId} {b c d : Account} {t : List Event}
      {o : LinkExit ⊕ Except SessionError Unit} {outcome : RunOutcome} (h : Cycles a left b)
      (hrun : EndsBy (launching b) t o c outcome d) (ht : ∀ e ∈ t, ¬ Announces b.signal.user e) :
      Cycles a (left ++ leftOver b.signal.mailboxes.length c.signal o) d

theorem Cycles.subscribers {left : List SubscriptionId} (h : Cycles a left b)
    (ha : a.signal.WellFormed) :
    b.signal.WellFormed ∧ b.signal.subscribers = a.signal.subscribers ++ left := by
  induction h with
  | none h => exact ⟨Steady.wellFormed h ha, by rw [List.append_nil]; exact h.subscribers⟩
  | @run left b c d t o outcome _ hrun ht ih =>
    obtain ⟨hb, hsubscribers⟩ := ih
    obtain ⟨hd, hleft⟩ := subscribers_after_run (a := launching b) hb hrun ht
    refine ⟨hd, ?_⟩
    rw [hleft, ← List.append_assoc, ← hsubscribers]
    rfl

/-- An account whose login flow is free, and whose protocol session needs not be written. -/
def Idle (a : Account) : Prop :=
  (∃ flow, a.login = .free flow) ∧ a.store = .profile none

/-- Nothing is announced, whoever is signed in. -/
def Unannounced (t : List Event) : Prop :=
  ∀ e ∈ t, ∀ user, ¬ Announces user e

/-- The part of a session after its subscription. -/
def listening (sub : SubscriptionId) : Program (Except SessionError Unit) :=
  (iterate (.listening sub none) Watch.step).bind fun _ => .done (.ok ())

theorem Unannounced.snoc {e : Event} (ht : Unannounced t) (he : ∀ user, ¬ Announces user e) :
    Unannounced (t ++ [e]) := by
  intro f hf user
  rcases List.mem_append.1 hf with hf | hf
  · exact ht f hf user
  · exact List.mem_singleton.1 hf ▸ he user

theorem unannounced_unanswered (id : ProfileId) (profile : Profile) :
    Unannounced (unanswered id profile) := by
  have htimeout (user : Option User) :
      ¬ Announces user (.answered (.call (.getUsers [.self])) (.error .timeout)) := by
    rintro (⟨-, u, hu⟩ | ⟨-, e, he, hunauthorized⟩)
    · cases hu
    · cases he
      cases hunauthorized
  intro e he user
  simp only [unanswered, List.mem_cons, List.not_mem_nil, or_false] at he
  rcases he with rfl | rfl | rfl | rfl | rfl
  · exact not_false
  · exact not_false
  · exact htimeout user
  · exact not_false
  · exact not_false

/-- An idle account can be brought to the point at which it listens. -/
theorem exists_run_listening (ha : Idle a) : ∃ t b,
    Run steady (either link body) (launching a) t
      (either (iterate () linkTurn) (listening a.signal.mailboxes.length)) b ∧
    Unannounced t ∧ Idle b ∧ b.signal = a.signal.subscribe.2 := by
  obtain ⟨⟨flow, hlogin⟩, hstore⟩ := ha
  let profile : Profile := { metadata := oneEach }
  have htokens : restorable profile.metadata ≠ [] := by
    intro h
    have hlength := length_restorable_oneEach
    rw [h] at hlength
    cases hlength
  let a₁ := readied (launching a) (flow.restoreTokens (restorable oneEach)) (Table.ofList [(5, 50)])
  let a₂ : Account := { a₁ with signal := a₁.signal.subscribe.2 }
  have hready : Run steady (either link body) (launching a) (unanswered a.profile profile)
      (either (iterate () linkTurn) (watching (.ok ()))) a₁ := by
    rw [body_eq_restored]
    exact (becomesReady_unanswered steady steady (a := launching a) rfl hlogin htokens
      storedHashes_oneEach).run.either_bind_right watching
  have hsubscribe : Run steady (watching (.ok ())) a₁ [] (listening a.signal.mailboxes.length) a₂ := by
    have hsub : Run steady Watch.subscribe a₁ [] (.done a.signal.mailboxes.length) a₂ := .of_await rfl
    exact (hsub.bind (.refl _ a₂)).bind_left _
  refine ⟨_, a₂, hready.append hsubscribe.race_right, ?_, ⟨⟨_, rfl⟩, hstore⟩, rfl⟩
  rw [List.append_nil]
  exact unannounced_unanswered a.profile profile

/-- A run of an idle account whose connection ends while it listens. -/
theorem exists_endsBy_link (ha : Idle a) : ∃ t c b,
    EndsBy (launching a) t (.inl (.ended (.ok ()))) c (.finished (.ok ())) b ∧ Unannounced t ∧
    Idle b ∧ c.signal = a.signal.subscribe.2 ∧ b.signal = a.signal.subscribe.2 := by
  obtain ⟨t, c, hlistening, ht, ⟨⟨flow, hlogin⟩, hstore⟩, hsignal⟩ := exists_run_listening ha
  have hlink : Run steady (either (iterate () linkTurn) (listening a.signal.mailboxes.length)) c
      [.answered .linkEvent (.ended (.ok ()))] (.done (.inl (.ended (.ok ())))) c :=
    Run.race_left_done (run_linkTurns_ended _ _)
  have hwrap := run_wrapUp (R := steady) (.ok ()) hstore hlogin
  refine ⟨_, c, _, ⟨_, _, rfl, hlistening.append hlink, hwrap⟩, ?_, ⟨⟨flow, hlogin⟩, hstore⟩, hsignal,
    hsignal⟩
  exact Unannounced.snoc (Unannounced.snoc ht fun _ => not_false) fun _ => not_false

/-- A run of an idle account that is cancelled while it listens. -/
theorem exists_endsBy_cancelled (ha : Idle a) : ∃ t c b,
    EndsBy (launching a) t (.inr (.ok ())) c (.finished (.ok ())) b ∧ Unannounced t ∧
    Idle b ∧ b.signal = a.signal.subscribe.2.unsubscribe a.signal.mailboxes.length := by
  obtain ⟨t, c, hlistening, ht, ⟨⟨flow, hlogin⟩, hstore⟩, hsignal⟩ := exists_run_listening ha
  let sub := a.signal.mailboxes.length
  let c' : Account := { c with signal := c.signal.unsubscribe sub }
  have hcancelled : Run steady (Watch.step (.listening sub none)) c [.cancelled]
      (.done (.inl (.leaving sub))) c := by
    have htoken : Run steady cancelled c [.cancelled] (.done ()) c := .single ⟨(), ⟨rfl, rfl⟩, rfl⟩
    have hevent : Run steady (unlessCancelled (Watch.nextEvent sub)) c [.cancelled] (.done none) c :=
      htoken.race_left_done
    exact hevent.bind (.refl _ c)
  have hleave : Run steady (Watch.step (.leaving sub)) c [] (.done (.inr ())) c' :=
    Run.bind (.of_await rfl) (.refl _ c')
  have hwatch : Run steady (listening sub) c [.cancelled] (.done (.ok ())) c' :=
    (Run.iterate_turn hcancelled (Run.iterate_done hleave)).bind (.refl _ c')
  have hwrap := run_wrapUp (R := steady) (a := c') (.ok ()) hstore hlogin
  refine ⟨_, c', _, ⟨_, _, rfl, hlistening.append hwatch.race_right_done, hwrap⟩, ?_,
    ⟨⟨flow, hlogin⟩, hstore⟩, congrArg (·.unsubscribe sub) hsignal⟩
  exact Unannounced.snoc (Unannounced.snoc ht fun _ => not_false) fun _ => not_false

/-- After any number of runs without an announcement, however each of them ended, the subscribers are those
from before and the subscriptions that were left behind. So their number is the same exactly if none was
left behind. A run that comes next leaves its own subscription behind, or nothing. -/
theorem subscribers_after_cycles {a b : Account} {left : List SubscriptionId}
    (ha : a.signal.WellFormed) (h : Cycles a left b) :
    b.signal.subscribers = a.signal.subscribers ++ left ∧
      (b.signal.subscribers.length = a.signal.subscribers.length ↔ left = []) ∧
      ∀ t outcome c, Run steady run (launching b) t (.done outcome) c →
        (∀ e ∈ t, ¬ Announces b.signal.user e) →
          ∃ more, Cycles a (left ++ more) c ∧ (more = [] ∨ more = [b.signal.mailboxes.length]) := by
  obtain ⟨-, hsubscribers⟩ := h.subscribers ha
  refine ⟨hsubscribers, ?_, fun t outcome c hrun ht => ?_⟩
  · rw [hsubscribers, List.length_append]
    simp
  · obtain ⟨o, x, hends⟩ := exists_endsBy hrun
    refine ⟨_, .run h hends ht, ?_⟩
    cases o with
    | inl exit => by_cases hown : b.signal.mailboxes.length ∈ x.signal.subscribers <;> simp [leftOver, hown]
    | inr result => exact .inl rfl

theorem idle_newAccount : Idle newAccount :=
  ⟨⟨{}, rfl⟩, rfl⟩

/-- Of three runs the second is cancelled, and the connection of the others ends. -/
theorem subscribers_after_cycles_three : ∃ b, newAccount.signal.WellFormed ∧
    Cycles newAccount [0, 2] b ∧ b.signal.subscribers = [0, 2] := by
  obtain ⟨t₁, c₁, b₁, hends₁, ht₁, hidle₁, hc₁, hb₁⟩ := exists_endsBy_link idle_newAccount
  obtain ⟨t₂, c₂, b₂, hends₂, ht₂, hidle₂, hb₂⟩ := exists_endsBy_cancelled hidle₁
  obtain ⟨t₃, c₃, b₃, hends₃, ht₃, -, hc₃, -⟩ := exists_endsBy_link hidle₂
  have h₁ := Cycles.run (.none (.refl newAccount.signal)) hends₁ fun e he => ht₁ e he _
  have h₂ := h₁.run hends₂ fun e he => ht₂ e he _
  have h₃ := h₂.run hends₃ fun e he => ht₃ e he _
  rw [hc₃, hb₂, hc₁, hb₁] at h₃
  have hwellFormed : newAccount.signal.WellFormed := wellFormed_initial
  have hcycles : Cycles newAccount [0, 2] b₃ := h₃
  exact ⟨b₃, hwellFormed, hcycles, (subscribers_after_cycles hwellFormed hcycles).1⟩

/-- When the connection of a session ends while it listens, its subscription stays. -/
theorem subscription_left_behind :
    ¬ ∀ (a b : Account) (t : List Event) (outcome : RunOutcome), a.signal.WellFormed →
      Run steady run a t (.done outcome) b → (∀ e ∈ t, ¬ Announces a.signal.user e) →
        b.signal.subscribers.length = a.signal.subscribers.length := by
  intro h
  obtain ⟨t, c, b, hends, ht, -, -, hb⟩ := exists_endsBy_link idle_newAccount
  have hcount := h (launching newAccount) b t _ wellFormed_initial hends.run fun e he => ht e he _
  rw [hb] at hcount
  cases hcount

end Session

end Telebridge
