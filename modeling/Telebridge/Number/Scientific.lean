import Telebridge.Number.Binary64
import Telebridge.Text.Decimal
set_option autoImplicit false

/-! # Reading decimal numbers

A decimal number is an optional sign, digits with at most one point (at least one digit in all),
and an optional exponent; or one of the words for infinity and not-a-number in any casing. It
stands for the nearest floating-point number. -/

namespace Telebridge.Binary64

/-- Splits at the first character satisfying `p`; the second part starts after it. -/
def splitAtFirst (p : Char → Bool) (cs : List Char) : List Char × Option (List Char) :=
  match cs.dropWhile fun c => !p c with
  | [] => (cs, none)
  | _ :: rest => (cs.takeWhile fun c => !p c, some rest)

/-- The exponents kept apart from the rest: beyond them every number is zero or infinite. -/
def clampExponent (digits : Nat) (e : Int) : Int :=
  let limit : Int := 400 + digits
  max (-limit) (min limit e)

/-- An unsigned decimal number with its sign given. -/
def ofDigits? (negative : Bool) (cs : List Char) : Option Binary64 := do
  let (number, power) := splitAtFirst (fun c => c = 'e' || c = 'E') cs
  let e ← match power with
    | none => some 0
    | some p => Text.readInt? p
  let (whole, decimals) := splitAtFirst (· = '.') number
  let decimals := decimals.getD []
  let n ← Text.readNat? (whole ++ decimals)
  let e := clampExponent number.length (e - decimals.length)
  some <|
    if e ≥ 0 then ofRatio negative (n * Nat.pow 10 e.toNat) 1
    else ofRatio negative n (Nat.pow 10 (-e).toNat)

/-- An unsigned number or word with its sign given. -/
def ofUnsigned? (negative : Bool) (cs : List Char) : Option Binary64 :=
  let word := String.ofList (cs.map Char.toLower)
  if word = "nan" then some nan
  else if word = "inf" || word = "infinity" then some (infinity negative)
  else ofDigits? negative cs

/-- Reads a decimal number, rounding to the nearest floating-point number. -/
def ofDecimal? (s : String) : Option Binary64 :=
  match s.toList with
  | '-' :: cs => ofUnsigned? true cs
  | '+' :: cs => ofUnsigned? false cs
  | cs => ofUnsigned? false cs

end Telebridge.Binary64
