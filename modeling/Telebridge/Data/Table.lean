set_option autoImplicit false

/-! # Tables

A finite map that remembers the order in which its keys first appeared. Each key occurs once
(`Table.nodup`), a later value replaces an earlier one in place, and look-ups after an insertion
are described by `Table.get?_insert`. -/

namespace Telebridge

variable {κ ν : Type}

/-! ## Entry lists -/

/-- The value stored under `k` in a list of entries. -/
def lookupEntry [DecidableEq κ] (k : κ) : List (κ × ν) → Option ν
  | [] => none
  | (a, b) :: rest => if a = k then some b else lookupEntry k rest

/-- Stores `v` under `k`: in place when the key is there, else at the end. -/
def putEntry [DecidableEq κ] (k : κ) (v : ν) : List (κ × ν) → List (κ × ν)
  | [] => [(k, v)]
  | (a, b) :: rest => if a = k then (k, v) :: rest else (a, b) :: putEntry k v rest

theorem keys_putEntry [DecidableEq κ] (k : κ) (v : ν) (entries : List (κ × ν)) :
    (putEntry k v entries).map Prod.fst =
      if k ∈ entries.map Prod.fst then entries.map Prod.fst else entries.map Prod.fst ++ [k] := by
  induction entries with
  | nil => rfl
  | cons e rest ih =>
    obtain ⟨a, b⟩ := e
    by_cases h : a = k
    · subst h; simp [putEntry]
    · have h' : k ≠ a := fun e => h e.symm
      simp only [putEntry, if_neg h, List.map_cons, ih, List.mem_cons, h', false_or]
      split <;> simp

theorem nodup_putEntry [DecidableEq κ] (k : κ) (v : ν) {entries : List (κ × ν)}
    (h : (entries.map Prod.fst).Nodup) : ((putEntry k v entries).map Prod.fst).Nodup := by
  rw [keys_putEntry]
  split
  · exact h
  · rename_i hk
    rw [List.nodup_append]
    refine ⟨h, by simp, ?_⟩
    intro a ha b hb
    rw [List.mem_singleton] at hb
    subst hb
    exact fun e => hk (e ▸ ha)

theorem lookupEntry_putEntry [DecidableEq κ] (k j : κ) (v : ν) (entries : List (κ × ν)) :
    lookupEntry j (putEntry k v entries) = if k = j then some v else lookupEntry j entries := by
  induction entries with
  | nil => simp [putEntry, lookupEntry]
  | cons e rest ih =>
    obtain ⟨a, b⟩ := e
    by_cases h : a = k
    · subst h
      by_cases hj : a = j <;> simp [putEntry, lookupEntry, hj]
    · by_cases hj : a = j
      · subst hj
        have h' : k ≠ a := fun e => h e.symm
        simp [putEntry, lookupEntry, h, h']
      · simp [putEntry, lookupEntry, h, hj, ih]

/-! ## Tables -/

/-- A finite map in order of first insertion. -/
structure Table (κ ν : Type) where
  entries : List (κ × ν)
  nodup : (entries.map Prod.fst).Nodup
deriving DecidableEq

namespace Table

/-- The table without entries. -/
def empty : Table κ ν := ⟨[], by simp⟩

instance : Inhabited (Table κ ν) := ⟨empty⟩

variable [DecidableEq κ]

/-- The value stored under `k`. -/
def get? (t : Table κ ν) (k : κ) : Option ν :=
  lookupEntry k t.entries

/-- Stores `v` under `k`, replacing what was there. -/
def insert (t : Table κ ν) (k : κ) (v : ν) : Table κ ν :=
  ⟨putEntry k v t.entries, nodup_putEntry k v t.nodup⟩

/-- Stores `v` under `k` unless the key is taken. -/
def insertNew (t : Table κ ν) (k : κ) (v : ν) : Table κ ν :=
  if (t.get? k).isSome then t else t.insert k v

/-- Stores a list of entries from left to right. -/
def insertAll (t : Table κ ν) (entries : List (κ × ν)) : Table κ ν :=
  entries.foldl (fun t e => t.insert e.1 e.2) t

/-- The table of a list of entries; of two with one key the later counts. -/
def ofList (entries : List (κ × ν)) : Table κ ν :=
  empty.insertAll entries

/-- The entries in order of first insertion. -/
def toList (t : Table κ ν) : List (κ × ν) :=
  t.entries

/-- Whether there are no entries. -/
def isEmpty (t : Table κ ν) : Bool :=
  t.entries.isEmpty

@[simp] theorem get?_empty (k : κ) : (empty : Table κ ν).get? k = none := rfl

@[simp] theorem get?_insert (t : Table κ ν) (k j : κ) (v : ν) :
    (t.insert k v).get? j = if k = j then some v else t.get? j :=
  lookupEntry_putEntry k j v t.entries

theorem get?_insertNew (t : Table κ ν) (k j : κ) (v : ν) :
    (t.insertNew k v).get? j = if k = j then some ((t.get? j).getD v) else t.get? j := by
  unfold insertNew
  by_cases h : (t.get? k).isSome
  · by_cases hk : k = j
    · subst hk
      obtain ⟨b, hb⟩ := Option.isSome_iff_exists.1 h
      simp [hb]
    · simp [h, hk]
  · by_cases hk : k = j
    · subst hk
      rw [Option.not_isSome_iff_eq_none] at h
      simp [h]
    · simp [h, hk]

end Table

end Telebridge
