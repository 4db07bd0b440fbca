set_option autoImplicit false

/-! # Decimal numerals

Reading whole numbers written in ASCII digits. A signed numeral may start with one `+` or `-`;
leading zeros are allowed; nothing else is. Fixed-width readers refuse what does not fit. -/

namespace Telebridge.Text

/-- One or more ASCII digits, read in base ten. -/
def readNat? (cs : List Char) : Option Nat :=
  if cs.isEmpty || !cs.all Char.isDigit then none else some (Nat.ofDigitChars 10 cs 0)

/-- An optional sign followed by one or more ASCII digits. -/
def readInt? : List Char → Option Int
  | '-' :: cs => (readNat? cs).map fun n => -(n : Int)
  | '+' :: cs => (readNat? cs).map fun n => (n : Int)
  | cs => (readNat? cs).map fun n => (n : Int)

/-- An integer as a 64-bit word, if it fits. -/
def fitInt64? (n : Int) : Option Int64 :=
  if Int64.minValue.toInt ≤ n ∧ n ≤ Int64.maxValue.toInt then some (Int64.ofInt n) else none

/-- An integer as a 32-bit word, if it fits. -/
def fitInt32? (n : Int) : Option Int32 :=
  if Int32.minValue.toInt ≤ n ∧ n ≤ Int32.maxValue.toInt then some (Int32.ofInt n) else none

/-- A signed numeral that fits 64 bits. -/
def readInt64? (s : String) : Option Int64 :=
  (readInt? s.toList).bind fitInt64?

/-- A signed numeral that fits 32 bits. -/
def readInt32? (s : String) : Option Int32 :=
  (readInt? s.toList).bind fitInt32?

/-- The digits of `n`. -/
def natDigits (n : Nat) : List Char :=
  Nat.toDigits 10 n

/-- The numeral of `n`: its digits, after a minus sign when it is negative. -/
def intDigits (n : Int) : List Char :=
  if n < 0 then '-' :: natDigits n.natAbs else natDigits n.natAbs

/-- The numeral of a natural number. -/
def showNat (n : Nat) : String :=
  String.ofList (natDigits n)

/-- The numeral of an integer. -/
def showInt (n : Int) : String :=
  String.ofList (intDigits n)

/-- The numeral of a 64-bit word. -/
def showInt64 (n : Int64) : String :=
  showInt n.toInt

/-- The numeral of a 32-bit word. -/
def showInt32 (n : Int32) : String :=
  showInt n.toInt

theorem readNat?_natDigits (n : Nat) : readNat? (natDigits n) = some n := by
  have digits : (Nat.toDigits 10 n).all Char.isDigit = true := by
    rw [List.all_eq_true]
    intro c hc
    exact Nat.isDigit_of_mem_toDigits (by decide) (by decide) hc
  have nonempty : (Nat.toDigits 10 n).isEmpty = false := by
    rw [List.isEmpty_eq_false_iff]
    exact Nat.toDigits_ne_nil
  simp [readNat?, natDigits, digits, nonempty, Nat.ofDigitChars_ten_toDigits]

end Telebridge.Text
