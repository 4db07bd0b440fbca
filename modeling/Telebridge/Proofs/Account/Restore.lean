import Telebridge.Proofs.Account.DirectoryLog
set_option autoImplicit false

/-! # Restoring a backup

A backup that is restored fills the gaps: the access hashes of users that are known stay, and the ones
that are missing are added, in whatever order the backup is gone through. Nothing else in the directory
changes, and a second time nothing changes at all. So a backup brings all users back after a purge, and
no groups or channels (`restoreUsers_fills_gaps`). -/

namespace Telebridge.PeerDirectory

variable {d : PeerDirectory} {m : Table Int64 Int64} {users : List (Int64 × Int64)}

/-- Two directories that differ in the access hashes of users at most. -/
structure AgreeBesidesUsers (d e : PeerDirectory) : Prop where
  hashes : ∀ key, key.kind ≠ .user → d.find? key = e.find? key
  phones : d.phones = e.phones
  contactsHash : d.contactsHash = e.contactsHash
  snapshots : ∀ kind id, d.snapshot? kind id = e.snapshot? kind id

/-- Restoring users leaves the addresses of groups and channels alone. -/
theorem find?_restoreUsers_of_ne (d : PeerDirectory) (users : List (Int64 × Int64)) {key : PeerKey}
    (hkey : key.kind ≠ .user) : (d.restoreUsers users).find? key = d.find? key := by
  unfold restoreUsers find?
  generalize d.hashes = hashes
  induction users generalizing hashes with
  | nil => rfl
  | cons e users ih =>
    have hne : (⟨.user, e.1⟩ : PeerKey) ≠ key := by
      rintro rfl
      exact hkey rfl
    rw [List.foldl_cons, ih, Table.get?_insertNew, if_neg hne]

theorem agreeBesidesUsers_restoreUsers (d : PeerDirectory) (users : List (Int64 × Int64)) :
    (d.restoreUsers users).AgreeBesidesUsers d where
  hashes _ := find?_restoreUsers_of_ne d users
  phones := rfl
  contactsHash := rfl
  snapshots kind _ := by cases kind <;> rfl

/-- What is known stays, and what is not is taken from the backup, whatever its order. -/
theorem find?_restoreUsers_perm (d : PeerDirectory) (h : users.Perm m.toList) (id : Int64) :
    (d.restoreUsers users).find? ⟨.user, id⟩ = (d.find? ⟨.user, id⟩).or (m.get? id) := by
  rw [find?_restoreUsers, lookupEntry_perm h m.nodup]
  rfl

/-- After a restoration the backup is the restored one, overridden by what was known. -/
theorem backupUsers_restoreUsers (d : PeerDirectory) (h : users.Perm m.toList) :
    (d.restoreUsers users).backupUsers.Perm (m.insertAll d.backupUsers).toList := by
  refine perm_of_lookupEntry (nodup_backupUsers _) (m.insertAll d.backupUsers).nodup fun id => ?_
  have hmerged : (m.insertAll d.backupUsers).get? id =
      (lookupEntry id d.backupUsers).or (m.get? id) :=
    Table.get?_insertAll m d.nodup_backupUsers id
  rw [lookupEntry_backupUsers, find?_restoreUsers_perm d h, ← lookupEntry_backupUsers]
  exact hmerged.symm

/-- Where every user is known nothing is restored. -/
theorem restoreUsers_of_known (h : ∀ e ∈ users, (d.find? ⟨.user, e.1⟩).isSome) :
    d.restoreUsers users = d := by
  have hhashes : users.foldl (fun t e => t.insertNew ⟨.user, e.1⟩ e.2) d.hashes = d.hashes := by
    induction users with
    | nil => rfl
    | cons e users ih =>
      have hknown : d.hashes.insertNew ⟨.user, e.1⟩ e.2 = d.hashes :=
        if_pos (h e List.mem_cons_self)
      rw [List.foldl_cons, hknown]
      exact ih fun e' he' => h e' (List.mem_cons_of_mem e he')
  rw [restoreUsers, hhashes]

/-- What was restored is known. -/
theorem restoreUsers_restoreUsers {again : List (Int64 × Int64)} (d : PeerDirectory)
    (h : users.Perm m.toList) (hagain : again.Perm m.toList) :
    (d.restoreUsers users).restoreUsers again = d.restoreUsers users := by
  refine restoreUsers_of_known fun e he => ?_
  have hlisted : m.get? e.1 = some e.2 :=
    (lookupEntry_eq_some_iff m.nodup).2 (hagain.mem_iff.1 he)
  rw [find?_restoreUsers_perm d h, hlisted]
  cases d.find? ⟨.user, e.1⟩ <;> rfl

/-- Into an empty directory a backup brings back the users that it lists. -/
theorem find?_purge_restoreUsers (d : PeerDirectory) (h : users.Perm d.backupUsers) (id : Int64) :
    (d.purge.restoreUsers users).find? ⟨.user, id⟩ = d.find? ⟨.user, id⟩ := by
  have hempty : d.purge.find? ⟨.user, id⟩ = none := rfl
  rw [find?_restoreUsers, hempty, Option.none_or, lookupEntry_perm h d.nodup_backupUsers,
    lookupEntry_backupUsers]

/-- A backup that is restored, in whatever order, fills the gaps: the new backup is the restored one
overridden by the old one, and besides users the directory is as before. To restore it again, in this or
another order, changes nothing. After a purge the earlier backup gives every user the access hash that
it had, and there are no addresses of groups and channels. -/
theorem restoreUsers_fills_gaps (d : PeerDirectory) (m : Table Int64 Int64)
    (h : users.Perm m.toList) :
    (d.restoreUsers users).backupUsers.Perm (m.insertAll d.backupUsers).toList ∧
    (d.restoreUsers users).AgreeBesidesUsers d ∧
    (∀ again : List (Int64 × Int64), again.Perm m.toList →
      (d.restoreUsers users).restoreUsers again = d.restoreUsers users) ∧
    ∀ earlier : List (Int64 × Int64), earlier.Perm d.backupUsers →
      (∀ id, (d.purge.restoreUsers earlier).find? ⟨.user, id⟩ = d.find? ⟨.user, id⟩) ∧
      ∀ key, key.kind ≠ .user → (d.purge.restoreUsers earlier).find? key = none := by
  refine ⟨backupUsers_restoreUsers d h, agreeBesidesUsers_restoreUsers d users,
    fun _ => restoreUsers_restoreUsers d h, fun earlier hearlier => ⟨?_, fun key hkey => ?_⟩⟩
  · exact find?_purge_restoreUsers d hearlier
  · exact find?_restoreUsers_of_ne d.purge earlier hkey

/-- User 1 is known with another hash, the group 2 has the id of a user of the backup, and the backup is
gone through from its end. -/
theorem restoreUsers_fills_gaps_sharedId :
    let d := (empty.save ⟨.user, 1⟩ 11).save ⟨.chat, 2⟩ 0
    let m : Table Int64 Int64 := Table.ofList [(1, 99), (2, 22)]
    [(2, 22), (1, 99)].Perm m.toList ∧ [(1, 11)].Perm d.backupUsers ∧
    (d.restoreUsers [(2, 22), (1, 99)]).backupUsers.Perm [(1, 11), (2, 22)] ∧
    (d.restoreUsers [(2, 22), (1, 99)]).find? ⟨.chat, 2⟩ = some 0 ∧
    (d.restoreUsers [(2, 22), (1, 99)]).restoreUsers [(1, 99), (2, 22)] =
      d.restoreUsers [(2, 22), (1, 99)] ∧
    (d.purge.restoreUsers [(1, 11)]).find? ⟨.user, 1⟩ = some 11 ∧
    (d.purge.restoreUsers [(1, 11)]).find? ⟨.chat, 2⟩ = none := by
  intro d m
  have horder : [(2, 22), (1, 99)].Perm m.toList := by decide
  have hbackup : [(1, 11)].Perm d.backupUsers := by decide
  obtain ⟨hmerged, hbesides, hagain, hpurged⟩ := restoreUsers_fills_gaps d m horder
  obtain ⟨husers, hothers⟩ := hpurged _ hbackup
  refine ⟨horder, hbackup, hmerged.trans (by decide), ?_, hagain _ (by decide), husers 1, ?_⟩
  · exact hbesides.hashes ⟨.chat, 2⟩ (by decide)
  · exact hothers ⟨.chat, 2⟩ (by decide)

end Telebridge.PeerDirectory
