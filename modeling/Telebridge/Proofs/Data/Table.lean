import Mathlib.Data.List.Nodup
import Telebridge.Data.Table
set_option autoImplicit false

/-! # Merging tables

What is found in a table into which another one was merged. Lists of entries without repeated keys are
told apart by what is found in them, and the order of the entries does not matter. -/

namespace Telebridge

variable {κ ν : Type} [DecidableEq κ]

/-- Only listed keys are found. -/
theorem lookupEntry_eq_none {k : κ} {entries : List (κ × ν)} (h : k ∉ entries.map Prod.fst) :
    lookupEntry k entries = none := by
  induction entries with
  | nil => rfl
  | cons e rest ih =>
    obtain ⟨a, b⟩ := e
    rw [List.map_cons, List.mem_cons, not_or] at h
    rw [lookupEntry, if_neg (Ne.symm h.1)]
    exact ih h.2

/-- Without repeated keys every entry is found. -/
theorem lookupEntry_eq_some_iff {k : κ} {v : ν} {entries : List (κ × ν)}
    (h : (entries.map Prod.fst).Nodup) : lookupEntry k entries = some v ↔ (k, v) ∈ entries := by
  induction entries with
  | nil => simp [lookupEntry]
  | cons e rest ih =>
    obtain ⟨a, b⟩ := e
    rw [List.map_cons, List.nodup_cons] at h
    rw [lookupEntry, List.mem_cons]
    by_cases ha : a = k
    · subst ha
      have hrest : (a, v) ∉ rest := fun hmem => h.1 (List.mem_map.2 ⟨_, hmem, rfl⟩)
      simp [hrest, eq_comm]
    · rw [if_neg ha, ih h.2]
      simp [Ne.symm ha]

/-- The order of entries does not matter. -/
theorem lookupEntry_perm {entries entries' : List (κ × ν)} (hperm : entries.Perm entries')
    (h : (entries'.map Prod.fst).Nodup) (k : κ) :
    lookupEntry k entries = lookupEntry k entries' := by
  have h' : (entries.map Prod.fst).Nodup := (hperm.map Prod.fst).nodup_iff.2 h
  refine Option.ext fun v => ?_
  rw [lookupEntry_eq_some_iff h', lookupEntry_eq_some_iff h, hperm.mem_iff]

/-- Lists in which the same is found have the same entries. -/
theorem perm_of_lookupEntry {entries entries' : List (κ × ν)}
    (h : (entries.map Prod.fst).Nodup) (h' : (entries'.map Prod.fst).Nodup)
    (heq : ∀ k, lookupEntry k entries = lookupEntry k entries') : entries.Perm entries' := by
  refine (List.perm_ext_iff_of_nodup h.of_map h'.of_map).2 fun e => ?_
  obtain ⟨k, v⟩ := e
  rw [← lookupEntry_eq_some_iff h, heq, lookupEntry_eq_some_iff h']

/-- A new key is stored at the end. -/
theorem putEntry_eq_append {k : κ} {v : ν} {entries : List (κ × ν)}
    (h : k ∉ entries.map Prod.fst) : putEntry k v entries = entries ++ [(k, v)] := by
  induction entries with
  | nil => rfl
  | cons e rest ih =>
    obtain ⟨a, b⟩ := e
    rw [List.map_cons, List.mem_cons, not_or] at h
    rw [putEntry, if_neg (Ne.symm h.1), ih h.2]
    rfl

namespace Table

/-- What is stored last counts; a list without repeated keys leaves no choice. -/
theorem get?_insertAll (t : Table κ ν) {entries : List (κ × ν)}
    (h : (entries.map Prod.fst).Nodup) (k : κ) :
    (t.insertAll entries).get? k = (lookupEntry k entries).or (t.get? k) := by
  induction entries generalizing t with
  | nil => rfl
  | cons e rest ih =>
    obtain ⟨a, b⟩ := e
    rw [List.map_cons, List.nodup_cons] at h
    show ((t.insert a b).insertAll rest).get? k = _
    rw [ih (t.insert a b) h.2, get?_insert, lookupEntry]
    by_cases ha : a = k
    · subst ha
      rw [lookupEntry_eq_none h.1]
      simp
    · rw [if_neg ha, if_neg ha]

omit [DecidableEq κ] in
theorem eq_of_entries {t u : Table κ ν} (h : t.entries = u.entries) : t = u := by
  obtain ⟨entries, nodup⟩ := t
  obtain ⟨entries', nodup'⟩ := u
  cases h
  rfl

omit [DecidableEq κ] in
theorem isEmpty_iff {t : Table κ ν} : t.isEmpty ↔ t = empty := by
  constructor
  · intro h
    exact eq_of_entries (List.isEmpty_iff.1 h)
  · rintro rfl
    rfl

/-- New keys are stored behind the old ones. -/
theorem entries_insertAll (t : Table κ ν) {entries : List (κ × ν)}
    (h : ((t.entries ++ entries).map Prod.fst).Nodup) :
    (t.insertAll entries).entries = t.entries ++ entries := by
  induction entries generalizing t with
  | nil => exact (List.append_nil _).symm
  | cons e rest ih =>
    obtain ⟨a, b⟩ := e
    have hnew : (t.insert a b).entries = t.entries ++ [(a, b)] := by
      refine putEntry_eq_append ?_
      rw [List.map_append, List.map_cons, List.nodup_middle, List.nodup_cons] at h
      intro ha
      exact h.1 (List.mem_append_left _ ha)
    show ((t.insert a b).insertAll rest).entries = _
    rw [ih (t.insert a b) (by rwa [hnew, List.append_assoc]), hnew, List.append_assoc]
    rfl

/-- A list without repeated keys is the list of entries of its table. -/
theorem toList_ofList {entries : List (κ × ν)} (h : (entries.map Prod.fst).Nodup) :
    (ofList entries).toList = entries :=
  entries_insertAll empty h

/-- A table is made up of its entries. -/
theorem ofList_toList (t : Table κ ν) : ofList t.toList = t :=
  eq_of_entries (toList_ofList t.nodup)

/-- A table that is merged into another covers it. -/
theorem get?_insertAll_toList (t u : Table κ ν) (k : κ) :
    (t.insertAll u.toList).get? k = (u.get? k).or (t.get? k) :=
  get?_insertAll t u.nodup k

end Table

end Telebridge
