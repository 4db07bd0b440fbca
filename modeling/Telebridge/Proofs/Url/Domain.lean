import Telebridge.Proofs.Url.Address
set_option autoImplicit false

/-! # What a mapping to ASCII keeps to

Hosts are read back as they were written because the mapping of names keeps to three rules
(`LawfulDomainMapping`): plain names stay as they are, what is written is in ASCII, and what has been
written is not changed when it is mapped again. The mapping of names that need no tables is lawful. -/

namespace Telebridge.Url

/-- A mapping that keeps to the rules. Of the names without capital letters only those are not plain
that may be in Punycode. -/
class LawfulDomainMapping [DomainMapping] : Prop where
  plain {name : List Char}
    (hchars : ∀ c ∈ name, c.isLower ∨ c.isDigit ∨ c = '-' ∨ c = '.')
    (hpunycode : ¬ ['x', 'n', '-', '-'] <:+: name) : DomainMapping.toAscii? name = some name
  ascii {name written : List Char} (h : DomainMapping.toAscii? name = some written) :
    ∀ c ∈ written, c.toNat < 128
  again {name written : List Char} (h : DomainMapping.toAscii? name = some written) :
    DomainMapping.toAscii? written = some written

/-! ## Lower case -/

/-- An ASCII character that is not a capital letter. -/
def IsLower (c : Char) : Prop :=
  c.toNat < 128 ∧ c.isUpper = false

theorem isUpper_toLower (c : Char) : c.toLower.isUpper = false := by
  unfold Char.toLower
  split
  · next h =>
    have hlow : 65 ≤ c.toNat := h.1
    have hhigh : c.toNat ≤ 90 := h.2
    refine decide_eq_false fun hupper => ?_
    have hsum : (c.val + ('a'.val - 'A'.val)).toNat ≤ 90 := hupper.2
    rw [UInt32.toNat_add] at hsum
    have hval : c.val.toNat = c.toNat := rfl
    have hdistance : ('a'.val - 'A'.val).toNat = 32 := by decide
    omega
  · next h => exact decide_eq_false h

theorem IsLower.toLower_eq {c : Char} (h : IsLower c) : c.toLower = c := by
  unfold Char.toLower
  rw [dif_neg (of_decide_eq_false h.2)]

theorem IsLower.plainDot_eq {c : Char} (h : IsLower c) : plainDot c = c := by
  have hne : ∀ d : Char, ¬ d.toNat < 128 → c ≠ d := fun d hd heq => hd (heq ▸ h.1)
  rw [plainDot, if_neg]
  simp [hne]

theorem isLower_punyDigit {n : Nat} (h : n < 36) : IsLower (punyDigit n) := by
  have hall : ∀ n < 36, (punyDigit n).toNat < 128 ∧ (punyDigit n).isUpper = false := by decide
  exact hall n h

/-! ## Punycode -/

theorem isLower_of_mem_punyNumber {bias fuel q k : Nat} {c : Char}
    (h : c ∈ punyNumber bias fuel q k) : IsLower c := by
  induction fuel generalizing q k with
  | zero => cases h
  | succ fuel ih =>
    rw [punyNumber] at h
    generalize ht : (if k ≤ bias then 1 else if k ≥ bias + 26 then 26 else k - bias) = t at h
    -- the threshold leaves both kinds of digit below 36
    have hlow : 1 ≤ t ∧ t ≤ 26 := by
      subst ht
      split
      · decide
      split
      · decide
      · omega
    split at h
    · obtain rfl := List.mem_singleton.1 h
      exact isLower_punyDigit (by omega)
    · rcases List.mem_cons.1 h with rfl | h
      · have hdigit := Nat.mod_lt (q - t) (show 36 - t > 0 by omega)
        exact isLower_punyDigit (by omega)
      · exact ih h

/-- The encoder writes lower-case ASCII only. -/
theorem isLower_of_mem_punyRound {label : List Char} {first : Nat} {s : PunyState}
    (hs : ∀ c ∈ s.output, IsLower c) : ∀ c ∈ (punyRound label first s).output, IsLower c := by
  unfold punyRound
  refine List.foldlRecOn (motive := fun s : PunyState => ∀ c ∈ s.output, IsLower c) label _ hs ?_
  intro s hs d _
  split
  · exact hs
  split
  · intro c hc
    rcases List.mem_append.1 hc with hc | hc
    · exact hs c hc
    · exact isLower_of_mem_punyNumber hc
  · exact hs

theorem isLower_of_mem_punycode {label : List Char} (hlabel : ∀ c ∈ label, c.isUpper = false) :
    ∀ c ∈ punycode label, IsLower c := by
  have hgo : ∀ (basic : List Char) (fuel : Nat) (s : PunyState), (∀ c ∈ s.output, IsLower c) →
      ∀ c ∈ (punycode.go label basic fuel s).output, IsLower c := by
    intro basic fuel
    induction fuel with
    | zero => exact fun s hs => hs
    | succ fuel ih =>
      intro s hs
      rw [punycode.go]
      split
      · exact ih _ (isLower_of_mem_punyRound hs)
      · exact hs
  refine hgo _ _ _ fun c hc => ?_
  dsimp only at hc
  split at hc
  · cases hc
  · rcases List.mem_append.1 hc with hc | hc
    · obtain ⟨hmem, hascii⟩ := List.mem_filter.1 hc
      exact ⟨of_decide_eq_true hascii, hlabel c hmem⟩
    · obtain rfl := List.mem_singleton.1 hc
      exact ⟨by decide, by decide⟩

theorem isLower_of_mem_asciiLabel {label : List Char} {c : Char} (h : c ∈ asciiLabel label) :
    IsLower c := by
  have hlower : ∀ d ∈ label.map Char.toLower, d.isUpper = false := by
    intro d hd
    obtain ⟨e, -, rfl⟩ := List.mem_map.1 hd
    exact isUpper_toLower e
  unfold asciiLabel at h
  dsimp only at h
  split at h
  · next hascii => exact ⟨of_decide_eq_true (List.all_eq_true.1 hascii c h), hlower c h⟩
  · rcases List.mem_append.1 h with h | h
    · have h : c ∈ ['x', 'n', '-', '-'] := h
      simp only [List.mem_cons, List.not_mem_nil, or_false] at h
      rcases h with rfl | rfl | rfl | rfl <;> exact ⟨by decide, by decide⟩
    · exact isLower_of_mem_punycode hlower c h

/-- A label in lower-case ASCII stays as it is. -/
theorem asciiLabel_eq_self {label : List Char} (h : ∀ c ∈ label, IsLower c) :
    asciiLabel label = label := by
  have hlower : label.map Char.toLower = label :=
    (List.map_congr_left fun c hc => (h c hc).toLower_eq).trans (List.map_id _)
  have hascii : (label.all fun c => c.toNat < 128) = true :=
    List.all_eq_true.2 fun c hc => decide_eq_true (h c hc).1
  simp only [asciiLabel, hlower, hascii, if_true]

/-! ## Plain names -/

/-- A name in lower-case ASCII is written as it is. -/
theorem plainAscii?_eq_self {name : List Char} (h : ∀ c ∈ name, IsLower c) :
    plainAscii? name = some name := by
  have hplain : name.map plainDot = name :=
    (List.map_congr_left fun c hc => (h c hc).plainDot_eq).trans (List.map_id _)
  have hlabels : (splitDots name).map asciiLabel = splitDots name := by
    refine (List.map_congr_left fun label hlabel => ?_).trans (List.map_id _)
    exact asciiLabel_eq_self fun c hc => h c (mem_of_mem_splitDots hlabel hc)
  have hreplaced : name.contains '\ufffd' = false := by
    rw [List.contains_eq_mem, decide_eq_false_iff_not]
    exact fun hmem => absurd (h _ hmem).1 (by decide)
  rw [plainAscii?, hreplaced, hplain, hlabels, splitDots_eq_splitOn]
  exact congrArg some (List.intercalate_splitOn '.')

theorem isLower_of_plainAscii? {name written : List Char} (h : plainAscii? name = some written) :
    ∀ c ∈ written, IsLower c := by
  intro c hc
  unfold plainAscii? at h
  split at h
  · cases h
  · cases h
    rcases mem_intercalate hc with rfl | ⟨label, hlabel, hc⟩
    · exact ⟨by decide, by decide⟩
    · obtain ⟨label', -, rfl⟩ := List.mem_map.1 hlabel
      exact isLower_of_mem_asciiLabel hc

/-- What stands before or after the capital letters. -/
theorem isLower_of_range {c : Char} (h : c.toNat < 65 ∨ 90 < c.toNat ∧ c.toNat < 128) : IsLower c := by
  refine ⟨by omega, decide_eq_false fun hupper => ?_⟩
  have hlow : 65 ≤ c.toNat := hupper.1
  have hhigh : c.toNat ≤ 90 := hupper.2
  omega

theorem isLower_of_plain {c : Char} (h : c.isLower ∨ c.isDigit ∨ c = '-' ∨ c = '.') : IsLower c := by
  rcases h with h | h | rfl | rfl
  · obtain ⟨hlow, hhigh⟩ := Bool.and_eq_true_iff.1 h
    have hlow : 97 ≤ c.toNat := of_decide_eq_true hlow
    have hhigh : c.toNat ≤ 122 := of_decide_eq_true hhigh
    exact isLower_of_range (.inr ⟨by omega, by omega⟩)
  · simp only [Char.isDigit, Bool.and_eq_true, decide_eq_true_eq] at h
    have hhigh : c.toNat ≤ 57 := h.2
    exact isLower_of_range (.inl (by omega))
  · exact isLower_of_range (.inl (by decide))
  · exact isLower_of_range (.inl (by decide))

instance : LawfulDomainMapping where
  plain hchars _ := plainAscii?_eq_self fun c hc => isLower_of_plain (hchars c hc)
  ascii h c hc := (isLower_of_plainAscii? h c hc).1
  again h := plainAscii?_eq_self (isLower_of_plainAscii? h)

end Telebridge.Url
