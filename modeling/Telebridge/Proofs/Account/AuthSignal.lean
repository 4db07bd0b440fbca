import Telebridge.Account.AuthSignal
set_option autoImplicit false

/-! # What a subscriber can rely on

The sign-in signal under any sequence of operations. Mailboxes are open as long as their subscription
is registered, and what waits in an open one describes who is signed in now. So whoever finds an open
mailbox empty has not missed a transition since it was last emptied (`Moves.of_unread`). -/

namespace Telebridge.AuthSignal

/-- A mailbox is open if its subscription is registered, and what waits in it is up to date. -/
structure WellFormed (s : AuthSignal) : Prop where
  registered : ∀ id, id ∈ s.subscribers ↔ (s.mailbox id).closed = false
  current : ∀ id e, (s.mailbox id).closed = false → (s.mailbox id).pending = some e →
    e = AuthEvent.ofUser s.user

theorem wellFormed_initial : initial.WellFormed where
  registered id := by simp [initial, mailbox]
  current id e h := by simp [initial, mailbox] at h

/-- The mailbox of an id that was not given out is closed. -/
theorem lt_of_open {s : AuthSignal} {id : SubscriptionId} (h : (s.mailbox id).closed = false) :
    id < s.mailboxes.length := by
  rcases Nat.lt_or_ge id s.mailboxes.length with hlt | hge
  · exact hlt
  · rw [mailbox, List.getElem?_eq_none hge] at h
    cases h

/-! ## Operations on mailboxes -/

/-- A broadcast puts the event into the mailboxes of subscribers. -/
theorem mailbox_broadcast {s : AuthSignal}
    (h : ∀ id, id ∈ s.subscribers ↔ (s.mailbox id).closed = false) (id : SubscriptionId) :
    s.broadcast.mailbox id =
      if id ∈ s.subscribers then offer (AuthEvent.ofUser s.user) (s.mailbox id)
      else s.mailbox id := by
  by_cases hid : id ∈ s.subscribers
  · have hlt := lt_of_open ((h id).1 hid)
    simp [broadcast, mailbox, hid, List.getElem?_mapIdx, List.getElem?_eq_getElem hlt]
  · cases hbox : s.mailboxes[id]? <;>
      simp [broadcast, mailbox, hid, List.getElem?_mapIdx, hbox]

theorem mailbox_subscribe (s : AuthSignal) (id : SubscriptionId) :
    s.subscribe.2.mailbox id =
      if id = s.mailboxes.length then { pending := s.user.map AuthEvent.signedIn }
      else s.mailbox id := by
  rcases Nat.lt_trichotomy id s.mailboxes.length with hlt | rfl | hgt
  · rw [if_neg (Nat.ne_of_lt hlt), mailbox, mailbox, subscribe, List.getElem?_append_left hlt]
  · simp [mailbox, subscribe]
  · rw [if_neg (Nat.ne_of_gt hgt), mailbox, mailbox, subscribe,
      List.getElem?_eq_none (by simp; omega), List.getElem?_eq_none (by omega)]

theorem mailbox_unsubscribe (s : AuthSignal) (id id' : SubscriptionId) :
    (s.unsubscribe id).mailbox id' =
      if id' = id then { closed := true } else s.mailbox id' := by
  by_cases h : id' = id
  · subst h
    rw [if_pos rfl, mailbox, unsubscribe, List.getElem?_modify]
    cases s.mailboxes[id']? <;> simp
  · rw [if_neg h, mailbox, mailbox, unsubscribe, List.getElem?_modify]
    simp [Ne.symm h]

theorem mailbox_take (s : AuthSignal) (id id' : SubscriptionId) :
    (s.take id).2.mailbox id' =
      if id' = id then { s.mailbox id with pending := none } else s.mailbox id' := by
  by_cases h : id' = id
  · subst h
    rw [if_pos rfl, mailbox, mailbox, take, List.getElem?_modify]
    cases s.mailboxes[id']? <;> simp
  · rw [if_neg h, mailbox, mailbox, take, List.getElem?_modify]
    simp [Ne.symm h]

/-- A reader takes what is pending. -/
theorem receive_eq (s : AuthSignal) (id : SubscriptionId) :
    s.receive id =
      (match (s.mailbox id).pending with
        | some e => .event e
        | none => if (s.mailbox id).closed then .ended else .waiting,
      (s.take id).2) := by
  cases hp : (s.mailbox id).pending <;> simp [receive, take, hp]

/-! ## Operations keep signals well-formed -/

/-- After a broadcast a signal is well-formed, even if some mailboxes were out of date before. -/
theorem broadcast_wellFormed {s : AuthSignal}
    (h : ∀ id, id ∈ s.subscribers ↔ (s.mailbox id).closed = false) : s.broadcast.WellFormed where
  registered id := by
    have hsub : id ∈ s.broadcast.subscribers ↔
        id ∈ s.subscribers ∧ (s.mailbox id).pending = none := by
      simp [broadcast]
    rw [mailbox_broadcast h, hsub]
    split
    · next hid => simp [offer, hid, (h id).1 hid]
    · next hid => simp [hid, mt (h id).2 hid]
  current id e hopen hpending := by
    rw [mailbox_broadcast h] at hopen hpending
    split at hpending
    · simpa [offer, eq_comm, broadcast] using hpending
    · next hid =>
      rw [if_neg hid] at hopen
      exact absurd ((h id).2 hopen) hid

theorem WellFormed.setUser {s : AuthSignal} (h : s.WellFormed) (user : Option User) :
    (s.setUser user).WellFormed :=
  broadcast_wellFormed h.registered

theorem WellFormed.reset {s : AuthSignal} (h : s.WellFormed) : s.reset.2.WellFormed := by
  unfold AuthSignal.reset
  split
  · exact broadcast_wellFormed h.registered
  · exact h

theorem WellFormed.subscribe {s : AuthSignal} (h : s.WellFormed) : s.subscribe.2.WellFormed where
  registered id := by
    have hsub : id ∈ s.subscribe.2.subscribers ↔ id ∈ s.subscribers ∨ id = s.mailboxes.length := by
      simp [AuthSignal.subscribe]
    rw [mailbox_subscribe, hsub]
    split
    · next hid => simp [hid]
    · next hid => simp [hid, h.registered]
  current id e hopen hpending := by
    rw [mailbox_subscribe] at hopen hpending
    split at hpending
    · cases hu : s.user with
      | none => simp [hu] at hpending
      | some u => simpa [hu, AuthSignal.subscribe, AuthEvent.ofUser, eq_comm] using hpending
    · next hid =>
      rw [if_neg hid] at hopen
      exact h.current id e hopen hpending

theorem WellFormed.unsubscribe {s : AuthSignal} (h : s.WellFormed) (id : SubscriptionId) :
    (s.unsubscribe id).WellFormed where
  registered id' := by
    have hsub : id' ∈ (s.unsubscribe id).subscribers ↔ id' ∈ s.subscribers ∧ id' ≠ id := by
      simp [AuthSignal.unsubscribe]
    rw [mailbox_unsubscribe, hsub]
    split
    · next hid => simp [hid]
    · next hid => simp [hid, h.registered]
  current id' e hopen hpending := by
    rw [mailbox_unsubscribe] at hopen hpending
    split at hpending
    · cases hpending
    · next hid =>
      rw [if_neg hid] at hopen
      exact h.current id' e hopen hpending

theorem WellFormed.take {s : AuthSignal} (h : s.WellFormed) (id : SubscriptionId) :
    (s.take id).2.WellFormed where
  registered id' := by
    rw [mailbox_take]
    split
    · next hid => exact hid ▸ h.registered id'
    · exact h.registered id'
  current id' e hopen hpending := by
    rw [mailbox_take] at hopen hpending
    split at hpending
    · cases hpending
    · next hid =>
      rw [if_neg hid] at hopen
      exact h.current id' e hopen hpending

/-! ## Transitions -/

/-- A transition that any activity of the account can make at any time. -/
inductive Move (s : AuthSignal) : AuthSignal → Prop
  | setUser (user : Option User) : Move s (s.setUser user)
  | reset : Move s s.reset.2

/-- Any number of transitions. -/
inductive Moves (s : AuthSignal) : AuthSignal → Prop
  | refl : Moves s s
  | tail {s' s'' : AuthSignal} (h : Moves s s') (hm : Move s' s'') : Moves s s''

theorem Moves.single {s s' : AuthSignal} (hm : Move s s') : Moves s s' :=
  .tail .refl hm

theorem Moves.trans {s s' s'' : AuthSignal} (h : Moves s s') (h' : Moves s' s'') : Moves s s'' := by
  induction h' with
  | refl => exact h
  | tail _ hm ih => exact .tail ih hm

/-- An open mailbox with nothing in it. -/
def Unread (s : AuthSignal) (id : SubscriptionId) : Prop :=
  (s.mailbox id).closed = false ∧ (s.mailbox id).pending = none

theorem Move.wellFormed {s s' : AuthSignal} (hm : Move s s') (h : s.WellFormed) : s'.WellFormed := by
  cases hm with
  | setUser user => exact h.setUser user
  | reset => exact h.reset

theorem Moves.wellFormed {s s' : AuthSignal} (hm : Moves s s') (h : s.WellFormed) :
    s'.WellFormed := by
  induction hm with
  | refl => exact h
  | tail _ hm ih => exact hm.wellFormed ih

/-- After a broadcast no mailbox is both open and empty. -/
theorem not_unread_broadcast {s : AuthSignal}
    (h : ∀ id, id ∈ s.subscribers ↔ (s.mailbox id).closed = false) (id : SubscriptionId) :
    ¬ s.broadcast.Unread id := by
  rintro ⟨hopen, hempty⟩
  rw [mailbox_broadcast h] at hopen hempty
  split at hempty
  · simp [offer] at hempty
  · next hid =>
    rw [if_neg hid] at hopen
    exact hid ((h id).2 hopen)

/-- A transition that leaves a mailbox open and empty has done nothing. -/
theorem Move.of_unread {s s' : AuthSignal} {id : SubscriptionId} (hm : Move s s') (h : s.WellFormed)
    (hu : s'.Unread id) : s' = s := by
  cases hm with
  | setUser user => exact absurd hu (not_unread_broadcast (by exact h.registered) id)
  | reset =>
    unfold AuthSignal.reset at hu ⊢
    split at hu
    · exact absurd hu (not_unread_broadcast (by exact h.registered) id)
    · next hn => rw [if_neg hn]

/-- Whoever finds a mailbox open and empty has missed nothing. -/
theorem Moves.of_unread {s s' : AuthSignal} {id : SubscriptionId} (hm : Moves s s')
    (h : s.WellFormed) (hu : s'.Unread id) : s' = s := by
  induction hm with
  | refl => rfl
  | tail hms hm ih =>
    obtain rfl := hm.of_unread (Moves.wellFormed hms h) hu
    exact ih hu

/-! ## Counting sign-ins -/

/-- Later the count is no smaller, and as long as it is the same, only the user who was signed in then
can be signed in. -/
def CountsOn (s s' : AuthSignal) : Prop :=
  s.signIns ≤ s'.signIns ∧
    (s'.signIns = s.signIns → s'.user.isSome → s'.user.map User.id = s.user.map User.id)

theorem CountsOn.of_eq {s s' : AuthSignal} (hu : s'.user = s.user) (hn : s'.signIns = s.signIns) :
    s.CountsOn s' :=
  ⟨Nat.le_of_eq hn.symm, fun _ _ => congrArg _ hu⟩

theorem CountsOn.trans {s s' s'' : AuthSignal} (h : s.CountsOn s') (h' : s'.CountsOn s'') :
    s.CountsOn s'' := by
  refine ⟨Nat.le_trans h.1 h'.1, fun hn hu => ?_⟩
  have hle := h.1
  have hle' := h'.1
  have hid : s''.user.map User.id = s'.user.map User.id := h'.2 (by omega) hu
  have hu' : s'.user.isSome := by
    rw [← Option.isSome_map, hid, Option.isSome_map] at hu
    exact hu
  exact hid.trans (h.2 (by omega) hu')

/-- A transition that signs in somebody new counts. -/
theorem Move.countsOn {s s' : AuthSignal} (hm : Move s s') : s.CountsOn s' := by
  cases hm with
  | setUser user =>
    simp only [CountsOn, AuthSignal.setUser, broadcast]
    split
    · exact ⟨Nat.le_succ _, fun h => absurd h (Nat.succ_ne_self _)⟩
    · next hn =>
      refine ⟨Nat.le_refl _, fun _ hu => ?_⟩
      simpa [hu] using hn
  | reset =>
    unfold AuthSignal.reset
    split
    · exact ⟨Nat.le_refl _, fun _ hu => by cases hu⟩
    · exact .of_eq rfl rfl

theorem Moves.countsOn {s s' : AuthSignal} (hm : Moves s s') : s.CountsOn s' := by
  induction hm with
  | refl => exact .of_eq rfl rfl
  | tail _ hm ih => exact ih.trans hm.countsOn

/-! ## Nothing announced -/

/-- Nothing was announced: the user and the subscribers are the same, and all that can have been done to a
mailbox is to empty it. -/
structure Steady (s s' : AuthSignal) : Prop where
  user : s'.user = s.user
  subscribers : s'.subscribers = s.subscribers
  length : s'.mailboxes.length = s.mailboxes.length
  closed : ∀ id, (s'.mailbox id).closed = (s.mailbox id).closed
  pending : ∀ id, (s'.mailbox id).pending = none ∨
    (s'.mailbox id).pending = (s.mailbox id).pending

theorem Steady.refl (s : AuthSignal) : s.Steady s :=
  ⟨rfl, rfl, rfl, fun _ => rfl, fun _ => .inr rfl⟩

theorem Steady.trans {s s' s'' : AuthSignal} (h : s.Steady s') (h' : s'.Steady s'') :
    s.Steady s'' where
  user := h'.user.trans h.user
  subscribers := h'.subscribers.trans h.subscribers
  length := h'.length.trans h.length
  closed id := (h'.closed id).trans (h.closed id)
  pending id := by
    rcases h'.pending id with hnone | hsame
    · exact .inl hnone
    · exact hsame ▸ h.pending id

/-- Whoever takes what is pending announces nothing. -/
theorem steady_take (s : AuthSignal) (id : SubscriptionId) : s.Steady (s.take id).2 where
  user := rfl
  subscribers := rfl
  length := by simp [take]
  closed id' := by
    rw [mailbox_take]
    split
    · next h => rw [h]
    · rfl
  pending id' := by
    rw [mailbox_take]
    split
    · exact .inl rfl
    · exact .inr rfl

theorem Steady.wellFormed {s s' : AuthSignal} (h : s.Steady s') (hs : s.WellFormed) :
    s'.WellFormed where
  registered id := by rw [h.subscribers, h.closed, hs.registered]
  current id e hopen hpending := by
    rw [h.closed] at hopen
    rcases h.pending id with hnone | hsame
    · rw [hnone] at hpending
      cases hpending
    · rw [h.user]
      exact hs.current id e hopen (hsame ▸ hpending)

end Telebridge.AuthSignal
