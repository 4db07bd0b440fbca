import Telebridge.Proofs.Session.WatchStep
set_option autoImplicit false

/-! # What the watch knows

`Watch.Reaches` are the stages that the watch can go through while others sign users in and out, and
`Watch.Informed` is what it knows in each of them as long as its mailbox is open and empty. From this
follows what a watch that waits, with nobody signed in, has made of the peers of the last sign-in: it
has forgotten them, unless it has just replaced an ended subscription. Then nobody told it that the
user is gone, and it waits for an event that does not come. -/

namespace Telebridge.Watch

open Program

/-! ## Stages -/

/-- The stages of a watch that began with an account, the latest first, and the account then. -/
def Reaches (a₀ : Account) (stages : List Stage) (a : Account) : Prop :=
  ∃ sub a₁ t, Run transitions subscribe a₀ t (.done sub) a₁ ∧
    Turns transitions step (.listening sub none) a₁ stages a

/-- What the watch knows at a stage, if its mailbox is open and empty: whether somebody is signed in,
and which sign-in it is. -/
def Informed (past : List Stage) : Stage → AuthSignal → Prop
  | .listening sub none, s => s.Unread sub → s.user = none
  | .listening sub (some g), s => s.Unread sub →
    (s.user.isSome ∧ s.signIns = g) ∨
      (s.user = none ∧ past.head? = some (.unsubscribed (some g)))
  | .signedIn sub _, s => s.Unread sub → s.user.isSome
  | .outdated sub g, s | .reading sub g, s => s.Unread sub → s.user.isSome ∧ s.signIns = g
  | .signedOut sub, s => s.Unread sub → s.user = none
  | .unsubscribed _, _ | .leaving _, _ => True

/-- All peers have been forgotten since dialogs were last read, if they ever were. -/
def Purged : List Stage → Prop
  | [] => True
  | .outdated _ _ :: _ | .signedOut _ :: _ => True
  | .reading _ _ :: _ => False
  | _ :: past => Purged past

/-- What `synced` says about the past. -/
def Remembers (past : List Stage) : Stage → Prop
  | .listening _ synced => (synced = none ↔ Purged past) ∧
    ∀ synced', past.head? = some (.unsubscribed synced') → synced = synced'
  | .signedIn _ synced | .unsubscribed synced => synced = none ↔ Purged past
  | _ => True

/-- The invariant of the watch. -/
def Holds : List Stage → Account → Prop
  | [], _ => False
  | stage :: past, a => a.signal.WellFormed ∧ Informed past stage a.signal ∧ Remembers past stage

/-- What the others do does not change what the watch knows. -/
theorem Informed.others {past : List Stage} {stage : Stage} {s s' : AuthSignal}
    (h : Informed past stage s) (hs : s.WellFormed) (hm : AuthSignal.Moves s s') :
    Informed past stage s' := by
  have hsame {sub : SubscriptionId} (hu : s'.Unread sub) : s' = s := hm.of_unread hs hu
  cases stage with
  | listening sub synced =>
    cases synced with
    | none => exact fun hu => hsame hu ▸ h (hsame hu ▸ hu)
    | some g => exact fun hu => hsame hu ▸ h (hsame hu ▸ hu)
  | signedIn sub synced => exact fun hu => hsame hu ▸ h (hsame hu ▸ hu)
  | outdated sub g => exact fun hu => hsame hu ▸ h (hsame hu ▸ hu)
  | reading sub g => exact fun hu => hsame hu ▸ h (hsame hu ▸ hu)
  | signedOut sub => exact fun hu => hsame hu ▸ h (hsame hu ▸ hu)
  | unsubscribed synced => trivial
  | leaving sub => trivial

theorem Holds.others {stages : List Stage} {a b : Account} (h : Holds stages a)
    (hm : AuthSignal.Moves a.signal b.signal) : Holds stages b := by
  cases stages with
  | nil => exact h
  | cons stage past =>
    obtain ⟨hs, hi, hr⟩ := h
    exact ⟨AuthSignal.Moves.wellFormed hm hs, hi.others hs hm, hr⟩

/-! ## The invariant -/

/-- A new subscription hears of a user who is signed in. -/
theorem not_unread_subscribe {s : AuthSignal} (h : s.subscribe.2.Unread s.mailboxes.length) :
    s.subscribe.2.user = none := by
  have hempty := h.2
  rw [AuthSignal.mailbox_subscribe, if_pos rfl] at hempty
  simpa [AuthSignal.subscribe] using hempty

/-- Every step tells the watch what it has to know. -/
theorem Effect.informed {past : List Stage} {stage stage' : Stage} {s s' : AuthSignal}
    (h : Effect stage s stage' s') (hs : s.WellFormed) (hi : Informed past stage s) :
    Informed (stage :: past) stage' s' := by
  cases h with
  | cancel => trivial
  | @deliver sub synced _ hclosed =>
    -- what was pending in an open mailbox tells who is signed in
    have hcurrent (e : AuthEvent) (he : (s.mailbox sub).pending = some e)
        (hu : (s.take sub).2.Unread sub) : e = AuthEvent.ofUser s.user := by
      have hopen := hu.1
      rw [AuthSignal.mailbox_take, if_pos rfl] at hopen
      exact hs.current sub e hopen he
    rcases hp : (s.mailbox sub).pending with _ | user | _
    · trivial
    · intro hu
      have he := hcurrent _ hp hu
      show s.user.isSome
      cases hu' : s.user with
      | none => rw [hu'] at he; cases he
      | some u => rfl
    · have hout (hu : (s.take sub).2.Unread sub) : s.user = none := by
        have he := hcurrent _ hp hu
        cases hu' : s.user with
        | none => rfl
        | some u => rw [hu'] at he; cases he
      simp only [afterDelivery]
      split <;> exact hout
  | @count sub synced =>
    rcases synced with _ | g
    · exact fun hu => ⟨hi hu, rfl⟩
    · simp only [afterSignIns]
      split
      · next hg => exact fun hu => .inl ⟨hi hu, hg.symm⟩
      · exact fun hu => ⟨hi hu, rfl⟩
  | forget => exact hi
  | read => exact fun hu => .inl (hi hu)
  | clear => exact hi
  | @resubscribe synced =>
    cases synced with
    | none => exact not_unread_subscribe
    | some g => exact fun hu => .inr ⟨not_unread_subscribe hu, rfl⟩

/-- Every step keeps `synced` and the past in line. -/
theorem Effect.remembers {past : List Stage} {stage stage' : Stage} {s s' : AuthSignal}
    (h : Effect stage s stage' s') (hr : Remembers past stage) :
    Remembers (stage :: past) stage' := by
  cases h with
  | cancel => trivial
  | @deliver sub synced _ hclosed =>
    rcases (s.mailbox sub).pending with _ | user | _
    · exact hr.1
    · exact hr.1
    · simp only [afterDelivery]
      split
      · trivial
      · next hs =>
        obtain rfl : synced = none := by simpa using hs
        exact ⟨hr.1, fun _ h => by cases h⟩
  | @count sub synced =>
    rcases synced with _ | g
    · trivial
    · simp only [afterSignIns]
      split
      · exact ⟨hr, fun _ h => by cases h⟩
      · trivial
  | forget => trivial
  | read => exact ⟨⟨fun h => (by cases h), False.elim⟩, fun _ h => (by cases h)⟩
  | clear => exact ⟨⟨fun _ => trivial, fun _ => rfl⟩, fun _ h => (by cases h)⟩
  | resubscribe => exact ⟨hr, fun _ h => by cases h; rfl⟩

/-- A step keeps the invariant. -/
theorem Holds.step {past : List Stage} {stage stage' : Stage} {a b : Account} {t : List Event}
    (h : Holds (stage :: past) a)
    (hr : Run transitions (Watch.step stage) a t (.done (.inl stage')) b) :
    Holds (stage' :: stage :: past) b := by
  obtain ⟨hs, hi, hm⟩ := h
  obtain ⟨s, s', has, he, hsb⟩ := step_effect hr
  have hs₁ := AuthSignal.Moves.wellFormed has hs
  have hs₂ := he.wellFormed hs₁
  have hi₂ := he.informed hs₁ (hi.others hs has)
  exact ⟨AuthSignal.Moves.wellFormed hsb hs₂, hi₂.others hs₂ hsb, he.remembers hm⟩

/-- The invariant holds whenever the watch stands between two steps. -/
theorem Reaches.holds {stages : List Stage} {a₀ a : Account} (h₀ : a₀.signal.WellFormed)
    (h : Reaches a₀ stages a) : Holds stages a := by
  obtain ⟨sub, a₁, t, hsub, hturns⟩ := h
  induction hturns with
  | turn _ hr ih => exact ih.step hr
  | @start a ha =>
    obtain ⟨-, a₂, a₃, ha₂, hf, ha₃⟩ := hsub.await_done
    simp only [Option.some.injEq, Prod.mk.injEq] at hf
    obtain ⟨rfl, rfl⟩ := hf
    have hs := (AuthSignal.Moves.wellFormed ha₂ h₀).subscribe
    have hi : Informed [] (.listening a₂.signal.mailboxes.length none) a₂.signal.subscribe.2 :=
      not_unread_subscribe
    have hm := transitions.trans ha₃ ha
    exact ⟨AuthSignal.Moves.wellFormed hm hs, hi.others hs hm,
      ⟨⟨fun _ => trivial, fun _ => rfl⟩, fun _ h => by cases h⟩⟩

/-! ## A watch that waits -/

/-- Where a run of the watch can stand: before its first stage, between two steps, or within one. -/
theorem run_cases {a₀ b : Account} {t : List Event} {q : Program Unit}
    (h : Run transitions run a₀ t q b) :
    (∃ p, Run transitions subscribe a₀ t p b) ∨
    (∃ stage past, Reaches a₀ (stage :: past) b ∧ q = iterate stage step) ∨
    ∃ stage past a u p, Reaches a₀ (stage :: past) a ∧ Run transitions (step stage) a u p b ∧
      q = p.bind (afterTurn step .done) := by
  obtain ⟨p, hp, -⟩ | ⟨sub, t₁, t₂, a₁, -, hsub, hloop⟩ := Run.bind_cases h
  · exact .inl ⟨p, hp⟩
  · obtain ⟨stage, past, hturns, hq⟩ | ⟨stage, past, a, u, p, hturns, hp, hq⟩ := hloop.iterate_cases
    · exact .inr (.inl ⟨stage, past, ⟨sub, a₁, t₁, hsub, hturns⟩, hq⟩)
    · exact .inr (.inr ⟨stage, past, a, u, p, ⟨sub, a₁, t₁, hsub, hturns⟩, hp, hq⟩)

/-- What is reached is reached by a run of the watch. -/
theorem Reaches.exists_run {a₀ a : Account} {stage : Stage} {past : List Stage}
    (h : Reaches a₀ (stage :: past) a) :
    ∃ t, Run transitions run a₀ t (iterate stage Watch.step) a := by
  obtain ⟨sub, a₁, t, hsub, hturns⟩ := h
  obtain ⟨u, hloop⟩ := hturns.run
  exact ⟨t ++ u, hsub.bind hloop⟩

/-- A watch that waits at an open and empty mailbox, with nobody signed in, has forgotten all peers since
it last read dialogs, unless it has just replaced an ended subscription with the peers of a sign-in in
the directory. In the first case, and in no other, `synced` is empty. -/
theorem parked_synced_iff {a₀ a : Account} {sub : SubscriptionId} {synced : Option Nat}
    {past : List Stage} (h₀ : a₀.signal.WellFormed)
    (h : Reaches a₀ (.listening sub synced :: past) a) (hu : a.signal.Unread sub)
    (hn : a.signal.user = none) :
    (synced = none ↔ Purged past) ∧
      (synced = none ↔ ∀ g, past.head? ≠ some (.unsubscribed (some g))) := by
  obtain ⟨-, hi, hr⟩ := h.holds h₀
  refine ⟨hr.1, ?_, ?_⟩
  · rintro rfl g hg
    cases hr.2 _ hg
  · intro hpast
    rcases synced with _ | g
    · rfl
    · rcases hi hu with ⟨hs, -⟩ | ⟨-, hg⟩
      · rw [hn] at hs
        cases hs
      · exact absurd hg (hpast g)

/-! ## A lost sign-out -/

/-- The stages that a watch can go through, and a signal after them. -/
def ReachesSignal (a₀ : Account) (stages : List Stage) (s : AuthSignal) : Prop :=
  ∃ a, Reaches a₀ stages a ∧ a.signal = s

theorem reachesSignal_subscribe (a₀ : Account) :
    ReachesSignal a₀ [.listening a₀.signal.subscribe.1 none] a₀.signal.subscribe.2 := by
  have hsub : Run transitions subscribe a₀ [] (.done a₀.signal.subscribe.1)
      { a₀ with signal := a₀.signal.subscribe.2 } := .of_await rfl
  exact ⟨_, ⟨_, _, _, hsub, .start (transitions.refl _)⟩, rfl⟩

theorem ReachesSignal.moves {a₀ : Account} {stages : List Stage} {s s' : AuthSignal}
    (h : ReachesSignal a₀ stages s) (hm : AuthSignal.Moves s s') : ReachesSignal a₀ stages s' := by
  obtain ⟨a, ⟨sub, a₁, t, hsub, hturns⟩, rfl⟩ := h
  exact ⟨{ a with signal := s' }, ⟨sub, a₁, t, hsub, hturns.before_others hm⟩, rfl⟩

theorem ReachesSignal.step {a₀ : Account} {past : List Stage} {stage stage' : Stage}
    {s s' : AuthSignal} (h : ReachesSignal a₀ (stage :: past) s) (he : Effect stage s stage' s')
    (hstay : ∀ sub, stage' ≠ .leaving sub) : ReachesSignal a₀ (stage' :: stage :: past) s' := by
  obtain ⟨a, ⟨sub, a₁, t, hsub, hturns⟩, rfl⟩ := h
  obtain ⟨u, b, hr, hb⟩ := he.exists_run hstay
  exact ⟨b, ⟨sub, a₁, t, hsub, .turn hturns hr⟩, hb⟩

/-- A watch that loses a sign-out. While it reads the dialogs of the first sign-in, the user signs out,
in again, and out. That is more than its mailbox takes: the second sign-in is the last that it hears of,
and its peers are still in the directory when it subscribes anew. -/
def lostSignOut : List Stage :=
  [.listening 1 (some 2), .unsubscribed (some 2), .listening 0 (some 2), .reading 0 2,
    .outdated 0 2, .signedIn 0 (some 1), .listening 0 (some 1), .reading 0 1, .signedIn 0 none,
    .listening 0 none]

theorem reaches_lostSignOut (a₀ : Account) (h₀ : a₀.signal = AuthSignal.initial) (user : User) :
    ∃ a, Reaches a₀ lostSignOut a ∧ a.signal.Unread 1 ∧ a.signal.user = none := by
  let box (pending : Option AuthEvent) (closed : Bool) : Mailbox := { pending, closed }
  let signed : AuthSignal :=
    { user := some user, subscribers := [0], mailboxes := [box none false], signIns := 1 }
  let away (boxes : List Mailbox) (subscribers : List SubscriptionId) : AuthSignal :=
    { user := none, subscribers, mailboxes := boxes, signIns := 2 }
  have h := reachesSignal_subscribe a₀
  rw [h₀] at h
  -- the first sign-in is heard of, and its dialogs are read
  have h := h.moves (.single (.setUser (some user)))
  have h : ReachesSignal a₀ [.signedIn 0 none, .listening 0 none] signed :=
    h.step (.deliver (fun h => by cases h)) (fun _ h => by cases h)
  have h := h.step (.count (s := signed)) (fun _ h => by cases h)
  -- out, in and out: the mailbox overflows
  have hm : AuthSignal.Moves signed
      (away [box (some (.signedIn user)) true] []) :=
    ((AuthSignal.Moves.single (.setUser none)).tail (.setUser (some user))).tail (.setUser none)
  have h := (h.moves hm).step .read (fun _ h => by cases h)
  -- the second sign-in is heard of
  have h : ReachesSignal a₀ (.signedIn 0 (some 1) :: _) (away [box none true] []) :=
    h.step (.deliver (fun h => by cases h)) (fun _ h => by cases h)
  have h := h.step (.count (s := away [box none true] [])) (fun _ h => by cases h)
  have h := h.step .forget (fun _ h => by cases h)
  have h := h.step .read (fun _ h => by cases h)
  -- the end of the subscription
  have h : ReachesSignal a₀ (.unsubscribed (some 2) :: _) (away [box none true] []) :=
    h.step (.deliver (fun _ => rfl)) (fun _ h => by cases h)
  obtain ⟨a, ha, hs⟩ := h.step .resubscribe (fun _ h => by cases h)
  refine ⟨a, ha, ?_, ?_⟩
  · rw [hs]
    exact ⟨rfl, rfl⟩
  · rw [hs]
    rfl

/-- A watch that waits with nobody signed in may have kept the peers of the last sign-in. -/
theorem parked_not_always_purged :
    ¬ ∀ (a₀ a : Account) (sub : SubscriptionId) (synced : Option Nat) (past : List Stage),
      a₀.signal.WellFormed → Reaches a₀ (.listening sub synced :: past) a → a.signal.Unread sub →
        a.signal.user = none → synced = none ∧ Purged past := by
  intro h
  let a₀ : Account := { config := default, profile := default }
  obtain ⟨a, ha, hu, hn⟩ := reaches_lostSignOut a₀ rfl default
  cases (h a₀ a 1 (some 2) _ AuthSignal.wellFormed_initial ha hu hn).1

/-- The watch of the lost sign-out waits, and has not forgotten the peers of the second sign-in. -/
theorem parked_synced_iff_lostSignOut : ∃ a₀ a : Account, a₀.signal.WellFormed ∧
    Reaches a₀ lostSignOut a ∧ a.signal.Unread 1 ∧ a.signal.user = none ∧
    ¬ Purged lostSignOut.tail := by
  let a₀ : Account := { config := default, profile := default }
  obtain ⟨a, ha, hu, hn⟩ := reaches_lostSignOut a₀ rfl default
  have hiff := (parked_synced_iff AuthSignal.wellFormed_initial ha hu hn).1
  exact ⟨a₀, a, AuthSignal.wellFormed_initial, ha, hu, hn, fun hp => by cases hiff.2 hp⟩

end Telebridge.Watch
