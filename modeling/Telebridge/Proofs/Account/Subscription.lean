import Telebridge.Proofs.Account.AuthSignal
set_option autoImplicit false

/-! # What subscribers get

Histories of the sign-in signal: operations of any parties, in any order. What the reader of a
subscription was handed, together with what still waits for it, is what was pending before, followed by
the transitions that were announced to it (`handed_append_pending`). Nothing is announced to a
subscriber that was dropped, so it gets its last event and then the end. A reader that keeps up is never
dropped, so it gets every transition. -/

namespace Telebridge.AuthSignal

/-! ## Histories -/

/-- An operation on the signal. A `receive` that finds nothing has to wait, and changes nothing. -/
inductive Operation where
  | subscribe
  | unsubscribe (id : SubscriptionId)
  | setUser (user : Option User)
  | reset
  | receive (id : SubscriptionId)
  | take (id : SubscriptionId)
deriving DecidableEq

/-- The operation looks into the mailbox of a subscription. -/
def Operation.reads (id : SubscriptionId) : Operation → Bool
  | .receive id' | .take id' => id' = id
  | _ => false

/-- The signal after an operation. -/
def apply (s : AuthSignal) : Operation → AuthSignal
  | .subscribe => s.subscribe.2
  | .unsubscribe id => s.unsubscribe id
  | .setUser user => s.setUser user
  | .reset => s.reset.2
  | .receive id => (s.receive id).2
  | .take id => (s.take id).2

/-- The transition that an operation is, if it is one. -/
def announced (s : AuthSignal) : Operation → Option AuthEvent
  | .setUser user => some (AuthEvent.ofUser user)
  | .reset => if s.user.isSome then some .signedOut else none
  | _ => none

/-- What an operation hands to the reader of a subscription. -/
def handed (s : AuthSignal) (id : SubscriptionId) : Operation → Option AuthEvent
  | .receive id' =>
    if id' = id then
      match (s.receive id).1 with
      | .event e => some e
      | .waiting | .ended => none
    else none
  | .take id' => if id' = id then (s.take id).1 else none
  | _ => none

/-- The signal after some operations. -/
def after (s : AuthSignal) (ops : List Operation) : AuthSignal :=
  ops.foldl apply s

/-- The transitions in a history, in order. -/
def transitions (s : AuthSignal) : List Operation → List AuthEvent
  | [] => []
  | op :: ops => (s.announced op).toList ++ (s.apply op).transitions ops

/-- All that the reader of a subscription is handed in a history, in order. -/
def deliveries (s : AuthSignal) (id : SubscriptionId) : List Operation → List AuthEvent
  | [] => []
  | op :: ops => (s.handed id op).toList ++ (s.apply op).deliveries id ops

/-- In a history the reader of a subscription stays subscribed, and looks into its mailbox between any
two transitions. `full` tells that something may have come since it last did. -/
def KeepsUp (id : SubscriptionId) : Bool → AuthSignal → List Operation → Prop
  | _, _, [] => True
  | full, s, op :: ops =>
    op ≠ .unsubscribe id ∧ ((s.announced op).isSome → full = false) ∧
      KeepsUp id (!op.reads id && (full || (s.announced op).isSome)) (s.apply op) ops

instance decidableKeepsUp (id : SubscriptionId) (full : Bool) (s : AuthSignal) :
    (ops : List Operation) → Decidable (KeepsUp id full s ops)
  | [] => isTrue trivial
  | op :: ops =>
    have := decidableKeepsUp id (!op.reads id && (full || (s.announced op).isSome)) (s.apply op) ops
    inferInstanceAs (Decidable (_ ∧ _ ∧ _))

/-! ## A single operation -/

variable {s : AuthSignal} {id : SubscriptionId} {op : Operation}

theorem WellFormed.apply (h : s.WellFormed) (op : Operation) : (s.apply op).WellFormed := by
  cases op with
  | subscribe => exact h.subscribe
  | unsubscribe id => exact h.unsubscribe id
  | setUser user => exact h.setUser user
  | reset => exact h.reset
  | receive id =>
    rw [AuthSignal.apply, receive_eq]
    exact h.take id
  | take id => exact h.take id

/-- Mailboxes stay. -/
theorem length_apply (s : AuthSignal) (op : Operation) :
    s.mailboxes.length ≤ (s.apply op).mailboxes.length := by
  cases op with
  | subscribe => simp [apply, subscribe]
  | unsubscribe id => simp [apply, unsubscribe]
  | setUser user => simp [apply, setUser, broadcast]
  | reset =>
    simp only [apply, reset]
    split <;> simp [broadcast]
  | receive id => simp [apply, receive_eq, take]
  | take id => simp [apply, take]

/-- A transition announces the state it leads to. -/
theorem ofUser_of_announced {e : AuthEvent} (h : s.announced op = some e) :
    e = AuthEvent.ofUser (s.apply op).user := by
  cases op with
  | setUser user => exact (Option.some.inj h).symm
  | reset =>
    simp only [announced] at h
    split at h
    · next hs =>
      simp only [apply, reset, hs, if_true]
      exact (Option.some.inj h).symm
    · cases h
  | _ => cases h

/-- What looks into a mailbox is no transition. -/
theorem announced_of_reads (h : op.reads id) : s.announced op = none := by
  cases op with
  | receive id' => rfl
  | take id' => rfl
  | _ => cases h

/-- What pends is handed to whoever looks into the mailbox. -/
theorem handed_eq (s : AuthSignal) (id : SubscriptionId) (op : Operation) :
    s.handed id op = if op.reads id then (s.mailbox id).pending else none := by
  cases op with
  | receive id' =>
    simp only [handed, Operation.reads, decide_eq_true_eq]
    split
    · rw [receive_eq]
      cases (s.mailbox id).pending with
      | some e => rfl
      | none => cases (s.mailbox id).closed <;> rfl
    · rfl
  | take id' => simp [handed, Operation.reads, take]
  | _ => rfl

/-- What an operation of others or of its reader does to a mailbox: a reader empties it, and a transition
is put into it as long as its subscription is registered. -/
theorem mailbox_apply (h : s.WellFormed) (hid : id < s.mailboxes.length)
    (hop : op ≠ .unsubscribe id) :
    (s.apply op).mailbox id =
      if op.reads id then { s.mailbox id with pending := none }
      else
        match s.announced op with
        | some e => if id ∈ s.subscribers then offer e (s.mailbox id) else s.mailbox id
        | none => s.mailbox id := by
  cases op with
  | subscribe =>
    rw [apply, mailbox_subscribe, if_neg (Nat.ne_of_lt hid)]
    rfl
  | unsubscribe id' =>
    have hne : id ≠ id' := by
      rintro rfl
      exact hop rfl
    rw [apply, mailbox_unsubscribe, if_neg hne]
    rfl
  | setUser user => exact mailbox_broadcast (by exact h.registered) id
  | reset =>
    by_cases hs : s.user.isSome
    · simp only [apply, reset, announced, hs, if_true]
      exact mailbox_broadcast (by exact h.registered) id
    · simp [apply, reset, announced, hs, Operation.reads]
  | receive id' =>
    rw [apply, receive_eq, mailbox_take]
    by_cases hne : id = id'
    · simp [Operation.reads, hne]
    · simp [Operation.reads, hne, Ne.symm hne, announced]
  | take id' =>
    rw [apply, mailbox_take]
    by_cases hne : id = id'
    · simp [Operation.reads, hne]
    · simp [Operation.reads, hne, Ne.symm hne, announced]

/-- A subscriber is dropped by a transition that finds its mailbox full, and by nothing else. -/
theorem mem_subscribers_apply (h : s.WellFormed) (hid : id < s.mailboxes.length)
    (hop : op ≠ .unsubscribe id) :
    id ∈ (s.apply op).subscribers ↔
      id ∈ s.subscribers ∧ ¬ ((s.announced op).isSome ∧ (s.mailbox id).pending.isSome) := by
  rw [(h.apply op).registered, mailbox_apply h hid hop]
  by_cases hr : op.reads id
  · simp [hr, announced_of_reads hr, h.registered]
  · cases ha : s.announced op with
    | none => simp [hr, h.registered]
    | some e =>
      by_cases hm : id ∈ s.subscribers
      · simp [hr, hm, offer, (h.registered id).1 hm]
      · simp [hr, hm, mt (h.registered id).2 hm]

/-- What the reader is handed and what is left for it are what was pending and, if it is registered and
has emptied its mailbox, the transition. -/
theorem handed_append_pending (h : s.WellFormed) (hid : id < s.mailboxes.length)
    (hop : op ≠ .unsubscribe id)
    (hempty : id ∈ s.subscribers → (s.announced op).isSome → (s.mailbox id).pending = none) :
    (s.handed id op).toList ++ ((s.apply op).mailbox id).pending.toList =
      (s.mailbox id).pending.toList ++
        if id ∈ s.subscribers then (s.announced op).toList else [] := by
  rw [handed_eq, mailbox_apply h hid hop]
  by_cases hr : op.reads id
  · simp [hr, announced_of_reads hr]
  · by_cases hm : id ∈ s.subscribers
    · cases ha : s.announced op with
      | none => simp [hr, hm]
      | some e =>
        have hp := hempty hm (by rw [ha]; rfl)
        simp [hr, hm, hp, offer]
    · cases ha : s.announced op <;> simp [hr, hm]

/-! ## Whole histories -/

theorem WellFormed.after (h : s.WellFormed) (ops : List Operation) : (s.after ops).WellFormed := by
  induction ops generalizing s with
  | nil => exact h
  | cons op ops ih => exact ih (h.apply op)

/-- A subscriber that was dropped is handed what is left in its mailbox, and stays dropped. -/
theorem deliveries_of_dropped (h : s.WellFormed) (hid : id < s.mailboxes.length)
    (hm : id ∉ s.subscribers) {ops : List Operation} (hops : .unsubscribe id ∉ ops) :
    s.deliveries id ops ++ ((s.after ops).mailbox id).pending.toList =
      (s.mailbox id).pending.toList ∧ id ∉ (s.after ops).subscribers := by
  induction ops generalizing s with
  | nil => exact ⟨rfl, hm⟩
  | cons op ops ih =>
    rw [List.mem_cons, not_or] at hops
    have hop : op ≠ .unsubscribe id := Ne.symm hops.1
    have hm' : id ∉ (s.apply op).subscribers := by
      rw [mem_subscribers_apply h hid hop]
      exact fun h' => hm h'.1
    have hstep := handed_append_pending h hid hop fun hm' => absurd hm' hm
    rw [if_neg hm, List.append_nil] at hstep
    obtain ⟨hrest, hgone⟩ := ih (h.apply op) (Nat.lt_of_lt_of_le hid (length_apply s op)) hm' hops.2
    refine ⟨?_, hgone⟩
    rw [deliveries, List.append_assoc, ← hstep]
    exact congrArg ((s.handed id op).toList ++ ·) hrest

/-- A reader that keeps up stays registered, and is handed what was pending and then every transition. -/
theorem deliveries_of_keepsUp {full : Bool} (h : s.WellFormed) (hm : id ∈ s.subscribers)
    (hfull : full = false → (s.mailbox id).pending = none) {ops : List Operation}
    (hops : KeepsUp id full s ops) :
    s.deliveries id ops ++ ((s.after ops).mailbox id).pending.toList =
      (s.mailbox id).pending.toList ++ s.transitions ops ∧ id ∈ (s.after ops).subscribers := by
  induction ops generalizing s full with
  | nil => exact ⟨(List.append_nil _).symm, hm⟩
  | cons op ops ih =>
    obtain ⟨hop, hkeep, hops⟩ := hops
    have hid := lt_of_open ((h.registered id).1 hm)
    have hempty (ha : (s.announced op).isSome) : (s.mailbox id).pending = none := hfull (hkeep ha)
    have hm' : id ∈ (s.apply op).subscribers := by
      rw [mem_subscribers_apply h hid hop]
      refine ⟨hm, fun ⟨ha, hp⟩ => ?_⟩
      simp [hempty ha] at hp
    have hfull' (hf : (!op.reads id && (full || (s.announced op).isSome)) = false) :
        ((s.apply op).mailbox id).pending = none := by
      rw [mailbox_apply h hid hop]
      by_cases hr : op.reads id
      · simp [hr]
      · simp only [hr, Bool.not_false, Bool.true_and, Bool.or_eq_false_iff,
          Option.isSome_eq_false_iff, Option.isNone_iff_eq_none] at hf
        simpa [hr, hf.2] using hfull hf.1
    have hstep := handed_append_pending h hid hop fun _ => hempty
    rw [if_pos hm] at hstep
    obtain ⟨hrest, hstay⟩ := ih (h.apply op) hm' hfull' hops
    refine ⟨?_, hstay⟩
    calc s.deliveries id (op :: ops) ++ ((s.after (op :: ops)).mailbox id).pending.toList
        = (s.handed id op).toList ++ (((s.apply op).mailbox id).pending.toList ++
            (s.apply op).transitions ops) := by
          rw [deliveries, List.append_assoc, ← hrest]
          rfl
      _ = (s.mailbox id).pending.toList ++ s.transitions (op :: ops) := by
          rw [← List.append_assoc, hstep, List.append_assoc]
          rfl

/-! ## What subscribers can rely on -/

/-- Whoever is dropped finds what is pending, and after that the end. -/
theorem receive_of_dropped (h : s.WellFormed) (hm : id ∉ s.subscribers) :
    (s.receive id).1 =
      match (s.mailbox id).pending with
      | some e => .event e
      | none => .ended := by
  have hclosed : (s.mailbox id).closed = true := by
    rw [h.registered, Bool.not_eq_false] at hm
    exact hm
  rw [receive_eq, hclosed]
  rfl

/-- A transition that finds a mailbox full leaves the state it leads to in it. -/
theorem pending_of_dropped (h : s.WellFormed) (hm : id ∈ s.subscribers) (hop : op ≠ .unsubscribe id)
    (hgone : id ∉ (s.apply op).subscribers) :
    ((s.apply op).mailbox id).pending = some (AuthEvent.ofUser (s.apply op).user) := by
  have hid := lt_of_open ((h.registered id).1 hm)
  rw [mem_subscribers_apply h hid hop, not_and, Decidable.not_not] at hgone
  obtain ⟨e, he⟩ := Option.isSome_iff_exists.1 (hgone hm).1
  have hr : ¬ op.reads id := by
    intro hr
    rw [announced_of_reads hr] at he
    cases he
  rw [mailbox_apply h hid hop, if_neg hr, he]
  simp only [if_pos hm, offer]
  rw [ofUser_of_announced he]

/-- After a transition that drops a subscriber its reader is handed the state then, and nothing else. -/
theorem last_delivery (h : s.WellFormed) (hm : id ∈ s.subscribers) (hop : op ≠ .unsubscribe id)
    (hgone : id ∉ (s.apply op).subscribers) {ops : List Operation} (hops : .unsubscribe id ∉ ops) :
    let s' := s.apply op
    (s'.deliveries id ops = [] ∧
      ((s'.after ops).receive id).1 = .event (AuthEvent.ofUser s'.user)) ∨
    (s'.deliveries id ops = [AuthEvent.ofUser s'.user] ∧
      ((s'.after ops).receive id).1 = .ended) := by
  intro s'
  have hid := lt_of_open ((h.registered id).1 hm)
  have hs' : s'.WellFormed := h.apply op
  obtain ⟨hd, hstay⟩ := deliveries_of_dropped hs' (Nat.lt_of_lt_of_le hid (length_apply s op))
    hgone hops
  rw [pending_of_dropped h hm hop hgone, Option.toList_some] at hd
  rw [receive_of_dropped (hs'.after ops) hstay]
  cases hp : ((s'.after ops).mailbox id).pending with
  | some e =>
    rw [hp, Option.toList_some] at hd
    obtain ⟨hnil, he⟩ : s'.deliveries id ops = [] ∧ e = AuthEvent.ofUser s'.user := by
      cases hds : s'.deliveries id ops with
      | nil => simpa [hds] using hd
      | cons => simp [hds] at hd
    exact .inl ⟨hnil, by rw [he]⟩
  | none =>
    rw [hp, Option.toList_none, List.append_nil] at hd
    exact .inr ⟨hd, rfl⟩

/-- A new subscriber that keeps up is handed who is signed in, and then every transition. -/
theorem deliveries_of_subscribe (h : s.WellFormed) {ops : List Operation}
    (hops : KeepsUp s.subscribe.1 s.user.isSome s.subscribe.2 ops) :
    let id := s.subscribe.1
    let s' := s.subscribe.2
    id ∈ (s'.after ops).subscribers ∧
      s'.deliveries id ops ++ ((s'.after ops).mailbox id).pending.toList =
        (s.user.map AuthEvent.signedIn).toList ++ s'.transitions ops := by
  intro id s'
  have hbox : s'.mailbox id = { pending := s.user.map AuthEvent.signedIn } := by
    rw [mailbox_subscribe]
    exact if_pos rfl
  have hm : id ∈ s'.subscribers := by simp [s', id, subscribe]
  have hfull (hu : s.user.isSome = false) : (s'.mailbox id).pending = none := by
    rw [hbox]
    simpa using hu
  obtain ⟨hd, hstay⟩ := deliveries_of_keepsUp h.subscribe hm hfull hops
  rw [hbox] at hd
  exact ⟨hstay, hd⟩

/-- What subscribers can rely on, after any operations on a fresh signal. A mailbox is closed exactly if
its subscription is not registered any more, and what pends in an open one describes who is signed in.
A subscriber is dropped exactly by a transition that finds its mailbox full; it is then handed the state
after that transition, and nothing else, and finds the end from then on. A subscriber that keeps up
stays registered, and is handed who is signed in when it subscribes, if anybody is, and then every
transition once and in order; only the last of all these may still be waiting for it. -/
theorem subscriptions_hold (before : List Operation) :
    let s := initial.after before
    (∀ id < s.mailboxes.length, (s.mailbox id).closed ↔ id ∉ s.subscribers) ∧
    (∀ id ∈ s.subscribers, ∀ e, (s.mailbox id).pending = some e → e = AuthEvent.ofUser s.user) ∧
    (∀ id ∈ s.subscribers, ∀ op ≠ .unsubscribe id,
      let s' := s.apply op
      (id ∉ s'.subscribers ↔ (s.announced op).isSome ∧ (s.mailbox id).pending.isSome) ∧
      (id ∉ s'.subscribers → ∀ ops, .unsubscribe id ∉ ops →
        (s'.deliveries id ops = [] ∧
          ((s'.after ops).receive id).1 = .event (AuthEvent.ofUser s'.user)) ∨
        (s'.deliveries id ops = [AuthEvent.ofUser s'.user] ∧
          ((s'.after ops).receive id).1 = .ended))) ∧
    (∀ ops, KeepsUp s.subscribe.1 s.user.isSome s.subscribe.2 ops →
      let id := s.subscribe.1
      let s' := s.subscribe.2
      id ∈ (s'.after ops).subscribers ∧
        s'.deliveries id ops ++ ((s'.after ops).mailbox id).pending.toList =
          (s.user.map AuthEvent.signedIn).toList ++ s'.transitions ops) := by
  intro s
  have h : s.WellFormed := wellFormed_initial.after before
  refine ⟨fun id _ => ?_, fun id hm e he => ?_, fun id hm op hop => ⟨?_, fun hgone ops hops => ?_⟩,
    fun ops hops => deliveries_of_subscribe h hops⟩
  · rw [h.registered, Bool.not_eq_false]
  · exact h.current id e ((h.registered id).1 hm) he
  · rw [mem_subscribers_apply h (lt_of_open ((h.registered id).1 hm)) hop, not_and,
      Decidable.not_not]
    exact ⟨fun hfull => hfull hm, fun hfull _ => hfull⟩
  · exact last_delivery h hm hop hgone hops

/-- Two readers. Somebody signs in while one subscriber does not look; at the sign-out it is dropped, and
gets the sign-out and then the end. Another one subscribes in between and keeps up, and gets all three
states. -/
theorem subscriptions_hold_two_readers :
    let user : User := { id := 7 }
    let before : List Operation := [.subscribe, .setUser (some user)]
    let s := initial.after before
    let late : List Operation := [.receive 0, .take 0]
    let prompt : List Operation := [.take 1, .reset, .receive 1, .setUser (some user)]
    (0 < s.mailboxes.length ∧ ((s.mailbox 0).closed ↔ 0 ∉ s.subscribers)) ∧
    (0 ∈ s.subscribers ∧ (s.mailbox 0).pending = some (.signedIn user) ∧
      .signedIn user = AuthEvent.ofUser s.user) ∧
    (Operation.reset ≠ .unsubscribe 0 ∧ 0 ∉ (s.apply .reset).subscribers ∧
      Operation.unsubscribe 0 ∉ late ∧ (s.apply .reset).deliveries 0 late = [.signedOut] ∧
      (((s.apply .reset).after late).receive 0).1 = .ended) ∧
    KeepsUp s.subscribe.1 s.user.isSome s.subscribe.2 prompt ∧
      s.subscribe.2.deliveries s.subscribe.1 prompt ++
          ((s.subscribe.2.after prompt).mailbox s.subscribe.1).pending.toList =
        [.signedIn user, .signedOut, .signedIn user] := by
  intro user before s late prompt
  obtain ⟨hclosed, hcurrent, hdropped, hprompt⟩ := subscriptions_hold before
  have hid : 0 < s.mailboxes.length := by decide
  have hm : 0 ∈ s.subscribers := by decide
  have hp : (s.mailbox 0).pending = some (.signedIn user) := by decide
  have hop : Operation.reset ≠ .unsubscribe 0 := by decide
  have hgone : 0 ∉ (s.apply .reset).subscribers := by decide
  have hlate : Operation.unsubscribe 0 ∉ late := by decide
  have hkeeps : KeepsUp s.subscribe.1 s.user.isSome s.subscribe.2 prompt := by decide
  obtain ⟨hd, -⟩ | ⟨hd, hend⟩ := (hdropped 0 hm .reset hop).2 hgone late hlate
  · exact absurd hd (by decide)
  · refine ⟨⟨hid, hclosed 0 hid⟩, ⟨hm, hp, hcurrent 0 hm _ hp⟩, ⟨hop, hgone, hlate, hd, hend⟩, hkeeps, ?_⟩
    exact (hprompt prompt hkeeps).2

end Telebridge.AuthSignal
