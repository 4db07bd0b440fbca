import Telebridge.Proofs.Call.Transparency
set_option autoImplicit false

/-! # Snapshots of users

The directory files the snapshot of a user under the user's id (`PeerDirectory.Keyed`). Nothing that a
reply, a batch of updates or a backup brings breaks this, so whoever looks up an id finds the user with
this id. -/

namespace Telebridge

namespace PeerDirectory

variable {d e : PeerDirectory}

/-- Whoever is found under an id has this id. -/
def Keyed (d : PeerDirectory) : Prop :=
  ∀ id user, d.findUser? id = some user → user.id = id

theorem keyed_empty : empty.Keyed := by
  intro id user h
  cases h

/-- Only the snapshots of users matter. -/
theorem Keyed.of_users_eq (h : d.Keyed) (hu : e.users = d.users) : e.Keyed := by
  intro id user hfound
  rw [findUser?, hu] at hfound
  exact h id user hfound

theorem Keyed.saveUsers (h : d.Keyed) (users : List User) : (d.saveUsers users).Keyed := by
  induction users generalizing d with
  | nil => exact h
  | cons u rest ih =>
    have hone : ({ d with users := d.users.insert u.id u } : PeerDirectory).Keyed := by
      intro id user hfound
      rw [findUser?, Table.get?_insert] at hfound
      split at hfound
      · next hid =>
        cases hfound
        exact hid
      · exact h id user hfound
    exact ih hone

theorem Keyed.applyUser (h : d.Keyed) (entry : UserEntry) : (d.applyUser entry).Keyed := by
  cases entry with
  | empty id => exact h
  | user u =>
    refine Keyed.saveUsers (h.of_users_eq ?_) [u]
    split <;> rfl

theorem Keyed.applyChat (h : d.Keyed) (entry : ChatEntry) : (d.applyChat entry).Keyed := by
  refine h.of_users_eq ?_
  unfold PeerDirectory.applyChat
  split
  · rfl
  · rfl
  · rfl
  · dsimp only
    split <;> rfl
  · rfl

theorem Keyed.apply (h : d.Keyed) (users : List UserEntry) (chats : List ChatEntry) :
    (d.apply users chats).Keyed := by
  have husers : (users.foldl PeerDirectory.applyUser d).Keyed := by
    induction users generalizing d with
    | nil => exact h
    | cons entry rest ih => exact ih (h.applyUser entry)
  unfold PeerDirectory.apply
  generalize users.foldl PeerDirectory.applyUser d = d₁ at husers
  induction chats generalizing d₁ with
  | nil => exact husers
  | cons entry rest ih => exact ih _ (husers.applyChat entry)

theorem Keyed.describe (h : d.Keyed) (full : UserFull ⊕ FullChat) : (d.describe full).Keyed := by
  refine h.of_users_eq ?_
  rcases full with user | (chat | channel) <;> rfl

theorem Keyed.restoreUsers (h : d.Keyed) (users : List (Int64 × Int64)) : (d.restoreUsers users).Keyed :=
  h.of_users_eq rfl

end PeerDirectory

namespace Pipeline

/-- Whatever a reply brings, snapshots stay where they belong. -/
theorem keyed_absorb {d : PeerDirectory} (h : d.Keyed) (request : Request) (reply : Reply) :
    (absorb request reply d).Keyed := by
  rw [absorb_eq_populated]
  have hlisted := h.apply reply.listed.1 reply.listed.2
  have hdescribed : (reply.described?.elim (d.apply reply.listed.1 reply.listed.2)
      (d.apply reply.listed.1 reply.listed.2).describe).Keyed := by
    cases reply.described? with
    | none => exact hlisted
    | some full => exact hlisted.describe full
  unfold populated
  cases phoneIndex? request reply with
  | none => exact hdescribed
  | some entry => exact hdescribed.of_users_eq rfl

/-- Nor does any answer to a call disturb them. -/
theorem keyed_learn {a : Account} (h : a.peers.Keyed) (request : Request)
    (answer : Except CallError Reply) : (learn request answer a).peers.Keyed := by
  cases answer with
  | error e =>
    simp only [learn]
    split <;> exact h
  | ok reply => exact keyed_absorb h request reply

end Pipeline

end Telebridge
