import Telebridge.Proofs.Session.DialogDescent
import Telebridge.Proofs.Session.Watch
set_option autoImplicit false

/-! # What the watch has read

`synced` is the sign-in whose dialogs were read last, as long as its peers have not been forgotten
(`Watch.lastRead`), and dialogs are only read when there is no such sign-in (`Watch.Tracks`). Together
with what the watch knows of its mailbox (`Watch.Informed`) this says what a watch that waits, with
somebody signed in, has done: it has read the dialogs of this very sign-in, and not forgotten its peers
since. Where it has been at a stage that forgets, the directory was empty after it (`Reaches.emptied`), and
where it has been at one that reads, it has asked for dialogs (`Reaches.asked`). -/

namespace Telebridge.Watch

open Program

/-! ## Reading and forgetting -/

/-- At this stage all peers are forgotten. -/
def Stage.purges : Stage → Bool
  | .outdated _ _ | .signedOut _ => true
  | _ => false

/-- The sign-in whose dialogs were read last, if its peers have not been forgotten since. -/
def lastRead : List Stage → Option Nat
  | [] => none
  | .reading _ g :: _ => some g
  | .outdated _ _ :: _ | .signedOut _ :: _ => none
  | .listening _ _ :: past | .signedIn _ _ :: past | .unsubscribed _ :: past
  | .leaving _ :: past => lastRead past

/-- All peers have been forgotten exactly if there is no sign-in whose peers are left. -/
theorem purged_iff {past : List Stage} : Purged past ↔ lastRead past = none := by
  induction past with
  | nil => simp [Purged, lastRead]
  | cons stage past ih => cases stage <;> simp [Purged, lastRead, ih]

/-- What was read last was read at some stage, and not forgotten at a later one. -/
theorem exists_reading {past : List Stage} {g : Nat} (h : lastRead past = some g) :
    ∃ later sub earlier, past = later ++ .reading sub g :: earlier ∧
      ∀ stage ∈ later, ¬ stage.purges := by
  induction past with
  | nil => cases h
  | cons stage past ih =>
    have skip (hs : ¬ stage.purges) (h : lastRead past = some g) :
        ∃ later sub earlier, stage :: past = later ++ .reading sub g :: earlier ∧
          ∀ stage ∈ later, ¬ stage.purges := by
      obtain ⟨later, sub, earlier, rfl, hlater⟩ := ih h
      exact ⟨stage :: later, sub, earlier, rfl, List.forall_mem_cons.2 ⟨hs, hlater⟩⟩
    cases stage with
    | reading sub g' =>
      cases h
      exact ⟨[], sub, past, rfl, fun _ h => by cases h⟩
    | outdated sub g' => cases h
    | signedOut sub => cases h
    | listening sub synced => exact skip (by simp [Stage.purges]) h
    | signedIn sub synced => exact skip (by simp [Stage.purges]) h
    | unsubscribed synced => exact skip (by simp [Stage.purges]) h
    | leaving sub => exact skip (by simp [Stage.purges]) h

/-- Where nothing is remembered of a stage that read, there was a later one that forgot. -/
theorem exists_purges {mid earlier : List Stage} {sub : SubscriptionId} {g : Nat}
    (h : lastRead (mid ++ .reading sub g :: earlier) = none) : ∃ stage ∈ mid, stage.purges := by
  induction mid with
  | nil => cases h
  | cons stage mid ih =>
    have skip (h : lastRead (mid ++ .reading sub g :: earlier) = none) :
        ∃ stage' ∈ stage :: mid, stage'.purges := by
      obtain ⟨stage', hmem, hp⟩ := ih h
      exact ⟨stage', List.mem_cons_of_mem _ hmem, hp⟩
    cases stage with
    | reading sub g' => cases h
    | outdated sub g' => exact ⟨_, List.mem_cons_self, rfl⟩
    | signedOut sub => exact ⟨_, List.mem_cons_self, rfl⟩
    | listening sub synced => exact skip h
    | signedIn sub synced => exact skip h
    | unsubscribed synced => exact skip h
    | leaving sub => exact skip h

/-! ## What is done at a stage -/

/-- A complete turn at a stage that forgets leaves an empty directory to the others. -/
theorem step_purges {R : Others} {stage stage' : Stage} {a b : Account} {t : List Event}
    (hstage : stage.purges) (hr : Run R (step stage) a t (.done (.inl stage')) b) :
    ∃ a', a'.peers = .empty ∧ Run R (step stage) a t (.done (.inl stage')) a' ∧ R.may a' b := by
  obtain ⟨next, hstep⟩ : ∃ next, step stage = purge >>= fun _ => .done (.inl next) := by
    cases stage with
    | outdated sub g => exact ⟨_, rfl⟩
    | signedOut sub => exact ⟨_, rfl⟩
    | _ => cases hstage
  rw [hstep] at hr ⊢
  obtain ⟨a₁, ha₁, hlast⟩ := Run.update_bind_iff.1 hr
  obtain ⟨rfl, hnext, hb⟩ := hlast.done_inv
  cases hnext
  exact ⟨_, rfl, Run.update_bind_iff.2 ⟨a₁, ha₁, .refl _ _⟩, hb⟩

/-- A complete turn at a stage that reads is a reading of all dialogs, and asks at least for the first
page. -/
theorem step_reads {R : Others} {stage' : Stage} {sub : SubscriptionId} {g : Nat} {a b : Account}
    {t : List Event} (hr : Run R (step (.reading sub g)) a t (.done (.inl stage')) b) :
    Run R DialogSync.run a t (.done ()) b ∧ ∃ x answer, R.may a x ∧
      (Pipeline.calls t).head? =
        some (DialogSync.pageRequest x.config.dialogsPage 0, answer) := by
  obtain ⟨_, t₁, t₂, a₁, rfl, hsync, hlast⟩ := Run.bind_done hr
  obtain ⟨rfl, -, hb⟩ := hlast.done_inv
  rw [List.append_nil]
  exact ⟨hsync.before_others hb, DialogSync.run_asks hsync⟩

/-! ## The watch keeps track -/

/-- What is known of the past at a stage, and of the sign-in that is read. -/
def Tracks (past : List Stage) : Stage → AuthSignal → Prop
  | .listening _ synced, _ | .signedIn _ synced, _ | .unsubscribed synced, _ =>
    synced = lastRead past
  | .outdated _ g, s => g ≤ s.signIns
  | .reading _ g, s => lastRead past = none ∧ g ≤ s.signIns
  | .signedOut _, _ | .leaving _, _ => True

/-- What the others do does not change what is known. -/
theorem Tracks.others {past : List Stage} {stage : Stage} {s s' : AuthSignal}
    (h : Tracks past stage s) (hs : s.CountsOn s') : Tracks past stage s' := by
  cases stage with
  | outdated sub g => exact Nat.le_trans h hs.1
  | reading sub g => exact ⟨h.1, Nat.le_trans h.2 hs.1⟩
  | _ => exact h

/-- Every step keeps track. -/
theorem Effect.tracks {past : List Stage} {stage stage' : Stage} {s s' : AuthSignal}
    (h : Effect stage s stage' s') (ht : Tracks past stage s) :
    Tracks (stage :: past) stage' s' := by
  cases h with
  | cancel => trivial
  | @deliver sub synced =>
    rcases (s.mailbox sub).pending with _ | user | _
    · exact ht
    · exact ht
    · simp only [afterDelivery]
      split
      · trivial
      · next hs =>
        obtain rfl : synced = none := by simpa using hs
        exact ht
  | @count sub synced =>
    rcases synced with _ | g
    · exact ⟨ht.symm, Nat.le_refl _⟩
    · simp only [afterSignIns]
      split
      · exact ht
      · exact Nat.le_refl _
  | forget => exact ⟨rfl, ht⟩
  | read => rfl
  | clear => rfl
  | resubscribe => exact ht

/-- Whenever the watch stands between two steps, it has kept track. -/
theorem Reaches.tracks {stage : Stage} {past : List Stage} {a₀ a : Account}
    (h : Reaches a₀ (stage :: past) a) : Tracks past stage a.signal := by
  obtain ⟨sub, a₁, t, -, hturns⟩ := h
  generalize hs : stage :: past = stages at hturns
  induction hturns generalizing stage past with
  | start =>
    cases hs
    rfl
  | turn _ hr ih =>
    cases hs
    obtain ⟨s, s', has, he, hsb⟩ := step_effect hr
    exact (he.tracks ((ih rfl).others has.countsOn)).others hsb.countsOn

/-! ## Counting on -/

/-- Whatever is done, sign-ins are counted. -/
def counting : Others where
  may a b := a.signal.CountsOn b.signal
  refl _ := .of_eq rfl rfl
  trans h h' := h.trans h'

theorem counting_of_eq {a b : Account} (hu : b.signal.user = a.signal.user)
    (hn : b.signal.signIns = a.signal.signIns) : counting.may a b :=
  AuthSignal.CountsOn.of_eq hu hn

theorem counting_of_transitions (a b : Account) (h : transitions.may a b) : counting.may a b :=
  AuthSignal.Moves.countsOn h

/-- Nothing that the watch does counts for a sign-in. -/
theorem tolerates_counting : Tolerates counting where
  learn request answer a := counting_of_transitions _ _ (moves_learn request answer a)
  purge _ := counting_of_eq rfl rfl
  take _ _ := counting_of_eq rfl rfl
  subscribe _ := counting_of_eq rfl rfl
  unsubscribe _ _ := counting_of_eq rfl rfl

/-! ## A watch that waits -/

/-- A reader waits exactly at an open mailbox with nothing in it. -/
theorem waiting_iff_unread (s : AuthSignal) (sub : SubscriptionId) :
    (s.receive sub).1 = .waiting ↔ s.Unread sub := by
  rw [AuthSignal.receive_eq, AuthSignal.Unread]
  cases (s.mailbox sub).pending <;> cases (s.mailbox sub).closed <;> simp

/-- The stages of a watch split where it stood at one of them. -/
theorem Reaches.split {later past : List Stage} {stage : Stage} {a₀ a : Account}
    (h : Reaches a₀ (later ++ stage :: past) a) :
    ∃ a', Reaches a₀ (stage :: past) a' ∧ Turns transitions step stage a' (later ++ [stage]) a := by
  obtain ⟨sub, a₁, t, hsub, hturns⟩ := h
  obtain ⟨a', hbefore, hafter⟩ := hturns.split
  exact ⟨a', ⟨sub, a₁, t, hsub, hbefore⟩, hafter⟩

/-- A stage that the watch has left is one of its complete turns. -/
theorem Reaches.turn {later past : List Stage} {stage stage' : Stage} {a₀ a : Account}
    (h : Reaches a₀ (later ++ stage' :: stage :: past) a) :
    ∃ a₁ t a₂, Reaches a₀ (stage :: past) a₁ ∧
      Run transitions (step stage) a₁ t (.done (.inl stage')) a₂ ∧
      Turns transitions step stage' a₂ (later ++ [stage']) a := by
  obtain ⟨a₂, ⟨sub, a₀', t₀, hsub, hbefore⟩, hafter⟩ := h.split
  cases hbefore with
  | turn hturns hr => exact ⟨_, _, a₂, ⟨sub, a₀', t₀, hsub, hturns⟩, hr, hafter⟩

/-- When the watch has left a stage that forgets, it has emptied the directory. -/
theorem Reaches.emptied {later past : List Stage} {stage stage' : Stage} {a₀ a : Account}
    (h : Reaches a₀ (later ++ stage' :: stage :: past) a) (hstage : stage.purges) :
    ∃ a', a'.peers = .empty ∧ Reaches a₀ (stage' :: stage :: past) a' ∧
      Turns transitions step stage' a' (later ++ [stage']) a := by
  obtain ⟨a₁, t, a₂, ⟨sub, a₀', t₀, hsub, hturns⟩, hr, hafter⟩ := h.turn
  obtain ⟨a', hempty, hr', hothers⟩ := step_purges hstage hr
  exact ⟨a', hempty, ⟨sub, a₀', t₀, hsub, .turn hturns hr'⟩, hafter.after_others hothers⟩

/-- When the watch has left a stage that reads, it has asked the server for dialogs. -/
theorem Reaches.asked {later past : List Stage} {sub : SubscriptionId} {g : Nat} {stage' : Stage}
    {a₀ a : Account} (h : Reaches a₀ (later ++ stage' :: .reading sub g :: past) a) :
    ∃ a₁ t a₂ limit answer, Reaches a₀ (.reading sub g :: past) a₁ ∧
      Run transitions DialogSync.run a₁ t (.done ()) a₂ ∧
      (Pipeline.calls t).head? = some (DialogSync.pageRequest limit 0, answer) ∧
      Turns transitions step stage' a₂ (later ++ [stage']) a := by
  obtain ⟨a₁, t, a₂, hbefore, hr, hafter⟩ := h.turn
  obtain ⟨hsync, x, answer, -, hasks⟩ := step_reads hr
  exact ⟨a₁, t, a₂, _, answer, hbefore, hsync, hasks, hafter⟩

/-- When all peers have been forgotten since dialogs were read, there was a moment since at which the
directory was empty. -/
theorem Reaches.emptied_since {mid earlier : List Stage} {stage : Stage} {sub : SubscriptionId} {g : Nat}
    {a₀ a : Account} (h : Reaches a₀ (stage :: (mid ++ .reading sub g :: earlier)) a)
    (hpurged : Purged (mid ++ .reading sub g :: earlier)) :
    ∃ after before a', stage :: mid = after ++ before ∧ a'.peers = .empty ∧
      Reaches a₀ (before ++ .reading sub g :: earlier) a' := by
  obtain ⟨forgetting, hmem, hforgets⟩ := exists_purges (purged_iff.1 hpurged)
  obtain ⟨after, before, rfl⟩ := List.append_of_mem hmem
  -- the directory is empty when the watch comes to the stage after the one that forgets
  obtain ⟨after', next, hnext⟩ : ∃ after' next, stage :: after = after' ++ [next] :=
    ⟨_, _, (List.dropLast_append_getLast (List.cons_ne_nil _ _)).symm⟩
  have hmid : stage :: (after ++ forgetting :: before) = after' ++ next :: forgetting :: before := by
    rw [← List.cons_append, hnext, List.append_assoc, List.singleton_append]
  rw [← List.cons_append, hmid, List.append_assoc] at h
  obtain ⟨a', hempty, hreaches, -⟩ := Reaches.emptied h hforgets
  exact ⟨after', next :: forgetting :: before, a', hmid, hempty, hreaches⟩

/-- Between two readings there is a moment at which the directory is empty. -/
theorem Reaches.emptied_between {later mid earlier : List Stage} {sub sub' : SubscriptionId}
    {g g' : Nat} {a₀ a : Account}
    (h : Reaches a₀ (later ++ .reading sub' g' :: (mid ++ .reading sub g :: earlier)) a) :
    ∃ after before a', .reading sub' g' :: mid = after ++ before ∧ a'.peers = .empty ∧
      Reaches a₀ (before ++ .reading sub g :: earlier) a' := by
  obtain ⟨_, hbefore, -⟩ := h.split
  exact hbefore.emptied_since (purged_iff.2 hbefore.tracks.1)

/-- The reading of dialogs that a watch remembers began when the sign-in was already counted; from then
on sign-ins were only counted. -/
theorem Reaches.exists_reading {stage : Stage} {past : List Stage} {a₀ a : Account} {g : Nat}
    (h : Reaches a₀ (stage :: past) a) (hg : lastRead past = some g) :
    ∃ later sub earlier a', past = later ++ .reading sub g :: earlier ∧
      (∀ stage ∈ later, ¬ stage.purges) ∧ Reaches a₀ (.reading sub g :: earlier) a' ∧
      Turns transitions step (.reading sub g) a' (stage :: later ++ [.reading sub g]) a ∧
      g ≤ a'.signal.signIns ∧ a'.signal.CountsOn a.signal := by
  obtain ⟨later, sub, earlier, rfl, hlater⟩ := Watch.exists_reading hg
  have hall : Reaches a₀ ((stage :: later) ++ .reading sub g :: earlier) a := h
  obtain ⟨a', hbefore, hafter⟩ := hall.split
  exact ⟨later, sub, earlier, a', rfl, hlater, hbefore, hafter, hbefore.tracks.2,
    hafter.conforms counting_of_transitions
      (conforms_step counting_of_transitions tolerates_counting)⟩

/-- A watch that waits is registered with the signal. If somebody is signed in, `synced` is the current
count of sign-ins, and it has begun to read the dialogs when this user was already signed in, for that
very sign-in, and has not forgotten its peers since. Between two readings it has always forgotten all
peers. -/
theorem waiting_in_sync {a₀ a : Account} {stages : List Stage} (h₀ : a₀.signal.WellFormed)
    (h : Reaches a₀ stages a) :
    (∀ sub synced past, stages = .listening sub synced :: past →
      (a.signal.receive sub).1 = .waiting →
        sub ∈ a.signal.subscribers ∧
        (a.signal.user.isSome → synced = some a.signal.signIns ∧
          ∃ later sub' earlier a',
            past = later ++ .reading sub' a.signal.signIns :: earlier ∧
            (∀ stage ∈ later, ¬ stage.purges) ∧
            Reaches a₀ (.reading sub' a.signal.signIns :: earlier) a' ∧
            Turns transitions step (.reading sub' a.signal.signIns) a'
              (.listening sub synced :: later ++ [.reading sub' a.signal.signIns]) a ∧
            a'.signal.signIns = a.signal.signIns ∧
            a'.signal.user.map User.id = a.signal.user.map User.id)) ∧
    (∀ later sub' g' mid sub g earlier,
      stages = later ++ .reading sub' g' :: (mid ++ .reading sub g :: earlier) →
        ∃ stage ∈ mid, stage.purges) := by
  refine ⟨?_, ?_⟩
  · rintro sub synced past rfl hwait
    have hu := (waiting_iff_unread _ _).1 hwait
    obtain ⟨hs, hi, -⟩ := h.holds h₀
    refine ⟨(hs.registered sub).2 hu.1, fun hsome => ?_⟩
    obtain ⟨g, rfl, rfl⟩ : ∃ g, synced = some g ∧ a.signal.signIns = g := by
      rcases synced with _ | g
      · have hnone : a.signal.user = none := hi hu
        simp [hnone] at hsome
      · rcases hi hu with ⟨-, hg⟩ | ⟨hnone, -⟩
        · exact ⟨g, rfl, hg⟩
        · simp [hnone] at hsome
    have hread : some a.signal.signIns = lastRead past := h.tracks
    obtain ⟨later, sub', earlier, a', hpast, hlater, hbefore, hafter, hle, hcount, hsame⟩ :=
      h.exists_reading hread.symm
    have hn := Nat.le_antisymm hcount hle
    exact ⟨rfl, later, sub', earlier, a', hpast, hlater, hbefore, hafter, hn,
      (hsame hn.symm hsome).symm⟩
  · rintro later sub' g' mid sub g earlier rfl
    obtain ⟨a', hbefore, -⟩ := h.split
    exact exists_purges hbefore.tracks.1

/-! ## A user who comes back -/

/-- A watch that hears of a sign-in, a sign-out and another sign-in, and waits. -/
def cameBack : List Stage :=
  [.listening 0 (some 2), .reading 0 2, .signedIn 0 none, .listening 0 none, .signedOut 0,
    .listening 0 (some 1), .reading 0 1, .signedIn 0 none, .listening 0 none]

theorem reaches_cameBack (a₀ : Account) (h₀ : a₀.signal = AuthSignal.initial) (user : User) :
    ∃ a, Reaches a₀ cameBack a ∧ a.signal.Unread 0 ∧ a.signal.user = some user := by
  let quiet (user : Option User) (signIns : Nat) : AuthSignal :=
    { user, subscribers := [0], mailboxes := [{}], signIns }
  have h := reachesSignal_subscribe a₀
  rw [h₀] at h
  -- the first sign-in
  have h := h.moves (.single (.setUser (some user)))
  have h : ReachesSignal a₀ (.signedIn 0 none :: _) (quiet (some user) 1) :=
    h.step (.deliver (fun h => by cases h)) (fun _ h => by cases h)
  have h := h.step (.count (s := quiet (some user) 1)) (fun _ h => by cases h)
  have h := h.step .read (fun _ h => by cases h)
  -- the sign-out
  have h := h.moves (.single .reset)
  have h : ReachesSignal a₀ (.signedOut 0 :: _) (quiet none 1) :=
    h.step (.deliver (fun h => by cases h)) (fun _ h => by cases h)
  have h := h.step .clear (fun _ h => by cases h)
  -- the second sign-in
  have h := h.moves (.single (.setUser (some user)))
  have h : ReachesSignal a₀ (.signedIn 0 none :: _) (quiet (some user) 2) :=
    h.step (.deliver (fun h => by cases h)) (fun _ h => by cases h)
  have h := h.step (.count (s := quiet (some user) 2)) (fun _ h => by cases h)
  obtain ⟨a, ha, hs⟩ := h.step .read (fun _ h => by cases h)
  refine ⟨a, ha, ?_, ?_⟩
  · rw [hs]
    exact ⟨rfl, rfl⟩
  · rw [hs]

/-- The watch of the user who came back waits, is registered, and is in sync with the second sign-in;
between the two readings it has forgotten the peers of the first. -/
theorem waiting_in_sync_cameBack : ∃ a₀ a : Account, a₀.signal.WellFormed ∧ Reaches a₀ cameBack a ∧
    (a.signal.receive 0).1 = .waiting ∧ a.signal.user.isSome ∧ 0 ∈ a.signal.subscribers ∧
    a.signal.signIns = 2 ∧
    ∃ stage ∈ [Stage.signedIn 0 none, .listening 0 none, .signedOut 0, .listening 0 (some 1)],
      stage.purges := by
  let a₀ : Account := { config := default, profile := default }
  obtain ⟨a, ha, hu, hn⟩ := reaches_cameBack a₀ rfl default
  have hwait := (waiting_iff_unread _ _).2 hu
  have hsome : a.signal.user.isSome := by
    rw [hn]
    rfl
  obtain ⟨hwaiting, hreadings⟩ := waiting_in_sync AuthSignal.wellFormed_initial ha
  obtain ⟨hm, hsync⟩ := hwaiting 0 (some 2) _ rfl hwait
  have hcount : 2 = a.signal.signIns := Option.some.inj (hsync hsome).1
  have hpurges := hreadings [.listening 0 (some 2)] 0 2
    [.signedIn 0 none, .listening 0 none, .signedOut 0, .listening 0 (some 1)] 0 1
    [.signedIn 0 none, .listening 0 none] rfl
  exact ⟨a₀, a, AuthSignal.wellFormed_initial, ha, hwait, hsome, hm, hcount.symm, hpurges⟩

end Telebridge.Watch
