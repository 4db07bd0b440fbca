import Telebridge.Call.RpcError
import Telebridge.Proofs.Text.Numeral
set_option autoImplicit false

/-! # Error messages are put together again

`RpcError.parse` takes a message apart at its last underscore if a number follows, and `RpcError.raw` puts
name and number together. `raw_parse` says which messages come back as they were: all but those whose
number is written with a superfluous zero (`EndsPadded`). What comes back always stands for the same
error. -/

namespace Telebridge.RpcError

variable {name suffix digits message : List Char} {n : Nat}

/-! ## The last underscore -/

theorem splitLast_eq_none_iff : splitLast message = none ↔ '_' ∉ message := by
  induction message with
  | nil => simp [splitLast]
  | cons c cs ih =>
    cases hcs : splitLast cs with
    | none => simp [splitLast, hcs, ih.1 hcs, eq_comm (a := '_')]
    | some parts =>
      have hmem : '_' ∈ cs := Classical.byContradiction fun h => by simp [ih.2 h] at hcs
      simp [splitLast, hcs, hmem]

theorem splitLast_append (name : List Char) (h : '_' ∉ suffix) :
    splitLast (name ++ '_' :: suffix) = some (name, suffix) := by
  induction name with
  | nil => simp [splitLast, splitLast_eq_none_iff.2 h]
  | cons c name ih => rw [List.cons_append, splitLast, ih]

theorem splitLast_eq_some_iff :
    splitLast message = some (name, suffix) ↔ message = name ++ '_' :: suffix ∧ '_' ∉ suffix := by
  refine ⟨fun h => ?_, fun ⟨hmessage, h⟩ => hmessage ▸ splitLast_append name h⟩
  induction message generalizing name with
  | nil => cases h
  | cons c cs ih =>
    rw [splitLast] at h
    split at h
    · next hcs =>
      cases h
      obtain ⟨rfl, hsuffix⟩ := ih hcs
      exact ⟨rfl, hsuffix⟩
    · next hcs =>
      split at h
      · next hc =>
        cases h
        exact ⟨by rw [hc, List.nil_append], splitLast_eq_none_iff.1 hcs⟩
      · cases h

/-! ## The number behind it -/

theorem underscore_notMem (h : ∀ c ∈ digits, c.isDigit = true) : '_' ∉ digits :=
  fun hmem => absurd (h '_' hmem) (by decide)

/-- A message has a value if it ends in an underscore and digits, and the number fits. -/
theorem splitValue?_eq_some_iff :
    splitValue? message = some (name, n) ↔
      ∃ digits, message = name ++ '_' :: digits ∧ Text.readNat? digits = some n ∧ n < UInt32.size := by
  simp only [splitValue?, Option.bind_eq_bind, Option.bind_eq_some_iff, Prod.exists,
    Option.ite_none_right_eq_some, Option.some.injEq, Prod.mk.injEq]
  constructor
  · rintro ⟨name, digits, hsplit, n, hread, hfits, rfl, rfl⟩
    exact ⟨digits, (splitLast_eq_some_iff.1 hsplit).1, hread, hfits⟩
  · rintro ⟨digits, rfl, hread, hfits⟩
    have hdigits := (Text.readNat?_eq_some_iff.1 hread).2.1
    exact ⟨name, digits, splitLast_append name (underscore_notMem hdigits), n, hread, hfits, rfl, rfl⟩

/-- The message ends in an underscore and digits whose number fits 32 bits and begins with a superfluous
zero. -/
def EndsPadded (message : String) : Prop :=
  ∃ name digits, message.toList = name ++ '_' :: digits ∧ (∀ c ∈ digits, c.isDigit = true) ∧
    Nat.ofDigitChars 10 digits 0 ≤ 4294967295 ∧ ∃ rest, rest ≠ [] ∧ digits = '0' :: rest

/-- Whether a message is such a one can be seen from the digits behind its last underscore. -/
theorem endsPadded_iff {message : String} (hmessage : message.toList = name ++ '_' :: digits)
    (hdigits : ∀ c ∈ digits, c.isDigit = true) (hfits : Nat.ofDigitChars 10 digits 0 < UInt32.size) :
    EndsPadded message ↔ ∃ rest, rest ≠ [] ∧ digits = '0' :: rest := by
  constructor
  · rintro ⟨name', digits', hmessage', hdigits', -, hzero⟩
    have hsplit := splitLast_append name' (underscore_notMem hdigits')
    rw [← hmessage', hmessage, splitLast_append name (underscore_notMem hdigits)] at hsplit
    cases hsplit
    exact hzero
  · exact fun hzero => ⟨name, digits, hmessage, hdigits, Nat.le_of_lt_succ hfits, hzero⟩

/-- Such a message has a value. -/
theorem splitValue?_of_endsPadded {message : String} (h : EndsPadded message) :
    ∃ name n, splitValue? message.toList = some (name, n) := by
  obtain ⟨name, digits, hmessage, hdigits, hfits, rest, -, rfl⟩ := h
  have hread : Text.readNat? ('0' :: rest) = some (Nat.ofDigitChars 10 ('0' :: rest) 0) :=
    Text.readNat?_eq_some_iff.2 ⟨List.cons_ne_nil _ _, hdigits, rfl⟩
  exact ⟨name, _, splitValue?_eq_some_iff.2 ⟨_, hmessage, hread, Nat.lt_succ_of_le hfits⟩⟩

/-! ## Messages and errors -/

/-- An error with a value has the number behind the last underscore of its message. -/
theorem toList_raw (code : Int32) (name : List Char) (hfits : n < UInt32.size) :
    (raw ⟨code, String.ofList name, some (UInt32.ofNat n)⟩).toList = name ++ '_' :: Text.natDigits n := by
  have hvalue : (UInt32.ofNat n).toNat = n := UInt32.toNat_ofNat_of_lt' hfits
  simp [raw, Text.showNat, hvalue]

/-- The message of an error stands for that error, and is the message that the error was read from unless
that one's number had a superfluous zero. -/
theorem raw_parse (code : Int32) (message : String) :
    parse code (parse code message).raw = parse code message ∧
      ((parse code message).raw = message ↔ ¬ EndsPadded message) := by
  cases hvalue : splitValue? message.toList with
  | none =>
    have hparse : parse code message = ⟨code, message, none⟩ := by rw [parse, hvalue]
    have hplain : ¬ EndsPadded message := fun hpadded => by
      obtain ⟨_, _, hsome⟩ := splitValue?_of_endsPadded hpadded
      rw [hvalue] at hsome
      cases hsome
    rw [hparse]
    exact ⟨hparse, iff_of_true rfl hplain⟩
  | some parts =>
    obtain ⟨name, n⟩ := parts
    obtain ⟨digits, hmessage, hread, hfits⟩ := splitValue?_eq_some_iff.1 hvalue
    obtain ⟨hne, hdigits, rfl⟩ := Text.readNat?_eq_some_iff.1 hread
    have hparse : parse code message =
        ⟨code, String.ofList name, some (UInt32.ofNat (Nat.ofDigitChars 10 digits 0))⟩ := by
      rw [parse, hvalue]
    have hraw := toList_raw code name hfits
    rw [← hparse] at hraw
    refine ⟨?_, ?_⟩
    · have hagain := splitValue?_eq_some_iff.2 ⟨_, hraw, Text.readNat?_natDigits _, hfits⟩
      rw [parse, hagain, hparse]
    · calc (parse code message).raw = message
          ↔ name ++ '_' :: Text.natDigits (Nat.ofDigitChars 10 digits 0) = name ++ '_' :: digits := by
            rw [← String.toList_inj, hraw, hmessage]
        _ ↔ Text.natDigits (Nat.ofDigitChars 10 digits 0) = digits := by simp
        _ ↔ ¬ ∃ rest, rest ≠ [] ∧ digits = '0' :: rest := Text.natDigits_ofDigitChars hne hdigits
        _ ↔ ¬ EndsPadded message := not_congr (endsPadded_iff hmessage hdigits hfits).symm

example : (parse 420 "FLOOD_WAIT_030").raw = "FLOOD_WAIT_30" := by cbv

end Telebridge.RpcError
