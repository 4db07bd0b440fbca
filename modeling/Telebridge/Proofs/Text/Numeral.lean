import Telebridge.Text.Blank
import Telebridge.Text.Decimal
set_option autoImplicit false

/-! # Numerals are read back

What is written as a numeral is read as the same number, with a sign or without, and blanks around it
make no difference once the text is trimmed (`readInt64?_trim`). What was read as a number is written the
same way again unless it began with superfluous zeros (`natDigits_ofDigitChars`). -/

namespace Telebridge.Text

/-! ## Numerals -/

theorem readNat?_eq_some_iff {cs : List Char} {n : Nat} :
    readNat? cs = some n ↔
      cs ≠ [] ∧ (∀ c ∈ cs, c.isDigit = true) ∧ n = Nat.ofDigitChars 10 cs 0 := by
  simp only [readNat?, Option.ite_none_left_eq_some, Bool.or_eq_true, not_or, List.isEmpty_iff,
    Bool.not_eq_true', Bool.not_eq_false, List.all_eq_true, Option.some.injEq, and_assoc,
    eq_comm (a := n)]

/-- A numeral of an integer without its sign. -/
theorem readInt?_cons {c : Char} (h : c.isDigit) (cs : List Char) :
    readInt? (c :: cs) = (readNat? (c :: cs)).map Int.ofNat := by
  unfold readInt?
  split
  · next heq =>
    cases heq
    exact absurd h (by decide)
  · next heq =>
    cases heq
    exact absurd h (by decide)
  · cases readNat? (c :: cs) <;> rfl

theorem isDigit_natDigits (n : Nat) : ∀ c ∈ natDigits n, c.isDigit = true :=
  fun _ hc => Nat.isDigit_of_mem_toDigits (by decide) (by decide) hc

theorem natDigits_ne_nil (n : Nat) : natDigits n ≠ [] := Nat.toDigits_ne_nil

theorem intDigits_ne_nil (n : Int) : intDigits n ≠ [] := by
  unfold intDigits
  split
  · exact List.cons_ne_nil _ _
  · exact natDigits_ne_nil _

theorem readInt?_intDigits (n : Int) : readInt? (intDigits n) = some n := by
  unfold intDigits
  split
  · next hneg =>
    rw [readInt?, readNat?_natDigits]
    show some (-(n.natAbs : Int)) = some n
    rw [Int.ofNat_natAbs_of_nonpos (Int.le_of_lt hneg), Int.neg_neg]
  · next hpos =>
    obtain ⟨c, cs, hdigits⟩ := List.exists_cons_of_ne_nil (natDigits_ne_nil n.natAbs)
    have hdigit : c.isDigit := isDigit_natDigits n.natAbs c (hdigits ▸ List.mem_cons_self)
    have hread : readNat? (c :: cs) = some n.natAbs := hdigits ▸ readNat?_natDigits n.natAbs
    rw [hdigits, readInt?_cons hdigit, hread]
    exact congrArg some (Int.natAbs_of_nonneg (Int.not_lt.1 hpos))

theorem fitInt64?_toInt (n : Int64) : fitInt64? n.toInt = some n := by
  rw [fitInt64?, if_pos ⟨Int64.minValue_le_toInt n, Int64.toInt_le n⟩, Int64.ofInt_toInt]

theorem fitInt32?_toInt (n : Int32) : fitInt32? n.toInt = some n := by
  rw [fitInt32?, if_pos ⟨Int32.minValue_le_toInt n, Int32.toInt_le n⟩, Int32.ofInt_toInt]

theorem readInt64?_showInt64 (n : Int64) : readInt64? (showInt64 n) = some n := by
  rw [readInt64?, showInt64, showInt, String.toList_ofList, readInt?_intDigits, Option.bind_some,
    fitInt64?_toInt]

/-! ## Superfluous zeros -/

/-- A digit is worth less than ten, and is the digit of its worth. -/
theorem exists_digitChar {c : Char} (h : c.isDigit = true) :
    c.toNat - '0'.toNat < 10 ∧ Nat.digitChar (c.toNat - '0'.toNat) = c := by
  simp only [Char.isDigit, Bool.and_eq_true, decide_eq_true_eq, UInt32.le_iff_toNat_le] at h
  have hlow : '0'.toNat ≤ c.toNat := h.1
  have hhigh : c.toNat ≤ '9'.toNat := h.2
  have hzero : '0'.toNat = 48 := rfl
  have hnine : '9'.toNat = 57 := rfl
  have hlt : c.toNat - '0'.toNat < 10 := by omega
  refine ⟨hlt, Char.toNat_inj.1 ?_⟩
  rw [Nat.toNat_digitChar_of_lt_ten hlt]
  omega

/-- Digits behind the numeral of a positive number make a numeral. -/
theorem natDigits_append {n : Nat} (hn : 0 < n) {cs : List Char} (h : ∀ c ∈ cs, c.isDigit = true) :
    natDigits n ++ cs = natDigits (Nat.ofDigitChars 10 cs n) := by
  induction cs generalizing n with
  | nil => rw [List.append_nil, Nat.ofDigitChars_nil]
  | cons c cs ih =>
    obtain ⟨hc, hcs⟩ := List.forall_mem_cons.1 h
    obtain ⟨hlt, hdigit⟩ := exists_digitChar hc
    have hlast : Nat.toDigits 10 n ++ [c] = Nat.toDigits 10 (10 * n + (c.toNat - '0'.toNat)) := by
      rw [← Nat.toDigits_append_toDigits (by decide) hn hlt, Nat.toDigits_of_lt_base hlt, hdigit]
    calc natDigits n ++ c :: cs
        = natDigits (10 * n + (c.toNat - '0'.toNat)) ++ cs := by
          rw [natDigits, natDigits, ← hlast, List.append_assoc, List.singleton_append]
      _ = natDigits (Nat.ofDigitChars 10 cs (10 * n + (c.toNat - '0'.toNat))) :=
          ih (by omega) hcs
      _ = natDigits (Nat.ofDigitChars 10 (c :: cs) n) := by rw [Nat.ofDigitChars_cons]

/-- A numeral that begins with a zero has no other digit. -/
theorem natDigits_ne_zero_cons (n : Nat) {rest : List Char} (h : rest ≠ []) :
    natDigits n ≠ '0' :: rest := by
  induction n using Nat.strongRecOn generalizing rest with
  | _ n ih =>
    intro heq
    rw [natDigits, Nat.toDigits_eq_if (by decide)] at heq
    split at heq
    · exact h (List.cons.inj heq).2.symm
    · next hge =>
      obtain ⟨d, ds, hfront⟩ := List.exists_cons_of_ne_nil (natDigits_ne_nil (n / 10))
      rw [natDigits] at hfront
      rw [hfront, List.cons_append] at heq
      obtain ⟨rfl, -⟩ := List.cons.inj heq
      -- the digits in front of the last one begin with a zero as well
      cases ds with
      | nil =>
        have hzero : n / 10 = 0 := by
          have hread := readNat?_natDigits (n / 10)
          rw [natDigits, hfront] at hread
          exact (Option.some.inj hread).symm
        omega
      | cons d' ds => exact ih (n / 10) (by omega) (List.cons_ne_nil d' ds) hfront

/-- Digits are the numeral of their number unless they begin with a superfluous zero. -/
theorem natDigits_ofDigitChars {digits : List Char} (hne : digits ≠ [])
    (h : ∀ c ∈ digits, c.isDigit = true) :
    natDigits (Nat.ofDigitChars 10 digits 0) = digits ↔
      ¬ ∃ rest, rest ≠ [] ∧ digits = '0' :: rest := by
  constructor
  · rintro heq ⟨rest, hrest, rfl⟩
    exact natDigits_ne_zero_cons _ hrest heq
  · intro hplain
    obtain ⟨c, cs, rfl⟩ := List.exists_cons_of_ne_nil hne
    obtain ⟨hc, hcs⟩ := List.forall_mem_cons.1 h
    obtain ⟨hlt, hdigit⟩ := exists_digitChar hc
    have hfirst : natDigits (c.toNat - '0'.toNat) = [c] := by
      rw [natDigits, Nat.toDigits_of_lt_base hlt, hdigit]
    rw [Nat.ofDigitChars_cons, Nat.mul_zero, Nat.zero_add]
    by_cases hzero : c.toNat - '0'.toNat = 0
    · have hc0 : c = '0' := by rw [← hdigit, hzero]; rfl
      obtain rfl : cs = [] := Classical.byContradiction fun hcs' => hplain ⟨cs, hcs', by rw [hc0]⟩
      rw [Nat.ofDigitChars_nil, hfirst]
    · rw [← natDigits_append (by omega) hcs, hfirst, List.singleton_append]

/-! ## Blanks -/

theorem isBlank_digit {c : Char} (h : c.isDigit) : isBlank c = false := by
  simp only [Char.isDigit, Bool.and_eq_true, decide_eq_true_eq, UInt32.le_iff_toNat_le] at h
  have hlow : 48 ≤ c.toNat := h.1
  have hhigh : c.toNat ≤ 57 := h.2
  simp only [isBlank, Bool.or_eq_false_iff, Bool.and_eq_false_iff, decide_eq_false_iff_not,
    beq_eq_false_iff_ne]
  omega

theorem isBlank_of_mem_intDigits {n : Int} {c : Char} (h : c ∈ intDigits n) : isBlank c = false := by
  unfold intDigits at h
  split at h
  · rcases List.mem_cons.1 h with rfl | h
    · decide
    · exact isBlank_digit (isDigit_natDigits _ c h)
  · exact isBlank_digit (isDigit_natDigits _ c h)

/-- Blanks in front of something else are dropped. -/
theorem dropFront_append {front rest : List Char} (hfront : ∀ c ∈ front, isBlank c)
    (hrest : ∀ c ∈ rest.head?, isBlank c = false) : dropFront isBlank (front ++ rest) = rest := by
  rw [dropFront, List.dropWhile_append_of_pos hfront]
  cases rest with
  | nil => rfl
  | cons c rest => exact List.dropWhile_cons_of_neg (by simpa using hrest c rfl)

/-- What has no blanks in it is what is left when the blanks around it are dropped. -/
theorem dropEnds_append {front core back : List Char} (hfront : ∀ c ∈ front, isBlank c)
    (hcore : ∀ c ∈ core, isBlank c = false) (hne : core ≠ []) (hback : ∀ c ∈ back, isBlank c) :
    dropEnds isBlank (front ++ core ++ back) = core := by
  obtain ⟨c, cs, rfl⟩ := List.exists_cons_of_ne_nil hne
  have hdropped : dropFront isBlank (front ++ (c :: cs) ++ back) = (c :: cs) ++ back := by
    rw [List.append_assoc]
    refine dropFront_append hfront fun d hd => ?_
    cases hd
    exact hcore c List.mem_cons_self
  have hreversed : dropFront isBlank (back.reverse ++ (c :: cs).reverse) = (c :: cs).reverse := by
    refine dropFront_append (fun d hd => hback d (List.mem_reverse.1 hd)) fun d hd => ?_
    exact hcore d (List.mem_reverse.1 (List.mem_of_mem_head? hd))
  rw [dropEnds, hdropped, dropBack, List.reverse_append]
  exact (congrArg List.reverse hreversed).trans (List.reverse_reverse _)

/-- A numeral with blanks around it is read as the number. -/
theorem readInt64?_trim (n : Int64) {front back : List Char} (hfront : ∀ c ∈ front, isBlank c)
    (hback : ∀ c ∈ back, isBlank c) :
    readInt64? (trim (String.ofList (front ++ (showInt64 n).toList ++ back))) = some n := by
  have hdigits : (showInt64 n).toList = intDigits n.toInt := by
    rw [showInt64, showInt, String.toList_ofList]
  rw [trim, String.toList_ofList, hdigits,
    dropEnds_append hfront (fun _ => isBlank_of_mem_intDigits) (intDigits_ne_nil _) hback]
  exact readInt64?_showInt64 n

end Telebridge.Text
