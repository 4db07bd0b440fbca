import Telebridge.Account.PeerDirectory
import Telebridge.Proofs.Data.Table
set_option autoImplicit false

/-! # Backups of the directory

A backup lists the access hashes of the users, each id once (`lookupEntry_backupUsers`,
`nodup_backupUsers`). Restoring one adds what is missing and leaves the rest alone
(`find?_restoreUsers`). -/

namespace Telebridge.PeerDirectory

variable (d : PeerDirectory)

/-- What is listed for a user is the hash that the directory has. -/
theorem lookupEntry_backupUsers (id : Int64) :
    lookupEntry id d.backupUsers = d.find? ⟨.user, id⟩ := by
  unfold backupUsers find? Table.get? Table.toList
  induction d.hashes.entries with
  | nil => rfl
  | cons e entries ih =>
    obtain ⟨⟨kind, i⟩, hash⟩ := e
    cases kind with
    | user => simp [lookupEntry, ih]
    | chat => simp [lookupEntry, ih]
    | channel => simp [lookupEntry, ih]

theorem nodup_backupUsers : (d.backupUsers.map Prod.fst).Nodup := by
  have hids : d.backupUsers.map Prod.fst = (d.hashes.entries.map Prod.fst).filterMap fun key =>
      if key.kind = .user then some key.id else none := by
    simp only [backupUsers, Table.toList, List.map_filterMap, List.filterMap_map]
    congr 1
    funext e
    simp only [Function.comp_apply]
    split <;> rfl
  rw [hids]
  refine List.Pairwise.filterMap _ ?_ d.hashes.nodup
  -- two keys of one kind differ in their ids
  rintro ⟨kind, i⟩ ⟨kind', i'⟩ hne j hj j' hj' rfl
  cases kind <;> cases hj
  cases kind' <;> cases hj'
  exact hne rfl

/-- In the table of a backup the hashes of the directory are found. -/
theorem lookupEntry_ofList_backupUsers (id : Int64) :
    lookupEntry id (Table.ofList d.backupUsers).toList = d.find? ⟨.user, id⟩ := by
  show (Table.empty.insertAll d.backupUsers).get? id = _
  rw [Table.get?_insertAll _ d.nodup_backupUsers, lookupEntry_backupUsers, Table.get?_empty,
    Option.or_none]

/-- A hash that is known stays; what is not known is taken from the backup. -/
theorem find?_restoreUsers (users : List (Int64 × Int64)) (id : Int64) :
    (d.restoreUsers users).find? ⟨.user, id⟩ =
      (d.find? ⟨.user, id⟩).or (lookupEntry id users) := by
  unfold restoreUsers find?
  generalize d.hashes = hashes
  induction users generalizing hashes with
  | nil => simp [lookupEntry]
  | cons e users ih =>
    obtain ⟨i, hash⟩ := e
    rw [List.foldl_cons, ih, Table.get?_insertNew, lookupEntry]
    by_cases hi : i = id
    · subst hi
      cases hashes.get? ⟨.user, i⟩ <;> simp
    · simp [hi]

end Telebridge.PeerDirectory
