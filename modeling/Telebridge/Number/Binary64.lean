set_option autoImplicit false

/-! # Binary floating-point numbers as bit patterns

A 64-bit floating-point number is kept as its bits, so that reading and writing it is exact
arithmetic on natural numbers. A finite number is `mantissa * 2 ^ exponent`; readers round to the
nearest number, a tie to the even mantissa. -/

namespace Telebridge

/-- A 64-bit floating-point number: sign, eleven exponent bits, fifty-two fraction bits. -/
structure Binary64 where
  bits : UInt64
deriving DecidableEq, Inhabited

namespace Binary64

/-! ## Parts -/

/-- The sign bit. -/
def isNegative (x : Binary64) : Bool :=
  x.bits.toNat / Nat.pow 2 63 = 1

/-- The eleven bits of the biased exponent. -/
def biasedExponent (x : Binary64) : Nat :=
  x.bits.toNat / Nat.pow 2 52 % Nat.pow 2 11

/-- The fifty-two bits of the fraction. -/
def fraction (x : Binary64) : Nat :=
  x.bits.toNat % Nat.pow 2 52

/-- Not a number. -/
def isNaN (x : Binary64) : Bool :=
  x.biasedExponent = 2047 && x.fraction != 0

/-- Plus or minus infinity. -/
def isInfinite (x : Binary64) : Bool :=
  x.biasedExponent = 2047 && x.fraction = 0

/-- The magnitude of a finite number is `mantissa * 2 ^ exponent`. -/
def mantissa (x : Binary64) : Nat :=
  if x.biasedExponent = 0 then x.fraction else x.fraction + Nat.pow 2 52

/-- The power of two that scales the mantissa. -/
def exponent (x : Binary64) : Int :=
  if x.biasedExponent = 0 then -1074 else (x.biasedExponent : Int) - 1075

/-! ## Construction -/

/-- A number from its sign and the bits below the sign. -/
def ofParts (negative : Bool) (rest : Nat) : Binary64 :=
  ⟨UInt64.ofNat ((if negative then Nat.pow 2 63 else 0) + rest)⟩

/-- A quiet not-a-number. -/
def nan : Binary64 := ofParts false (2047 * Nat.pow 2 52 + Nat.pow 2 51)

/-- Infinity with a sign. -/
def infinity (negative : Bool) : Binary64 := ofParts negative (2047 * Nat.pow 2 52)

/-- Zero with a sign. -/
def zero (negative : Bool) : Binary64 := ofParts negative 0

/-- `num / den` rounded to the nearest natural number, a tie to the even one. -/
def roundDiv (num den : Nat) : Nat :=
  let q := num / den
  let twice := 2 * (num % den)
  if twice < den then q else if twice > den then q + 1 else if q % 2 = 0 then q else q + 1

/-- The exponent of the highest power of two not above `num / den`, for positive arguments. -/
def floorLog2Ratio (num den : Nat) : Int :=
  let t : Int := (num.log2 : Int) - (den.log2 : Int)
  let below := if t ≥ 0 then num < den * Nat.pow 2 t.toNat else num * Nat.pow 2 (-t).toNat < den
  if below then t - 1 else t

/-- The number nearest to `num / den`, with a sign. -/
def ofRatio (negative : Bool) (num den : Nat) : Binary64 :=
  if num = 0 then zero negative
  else
    let e : Int := max (-1074) (floorLog2Ratio num den - 52)
    let q :=
      if e ≥ 0 then roundDiv num (den * Nat.pow 2 e.toNat)
      else roundDiv (num * Nat.pow 2 (-e).toNat) den
    let (q, e) := if q = Nat.pow 2 53 then (Nat.pow 2 52, e + 1) else (q, e)
    if e > 971 then infinity negative
    else if q < Nat.pow 2 52 then ofParts negative q
    else ofParts negative ((e + 1075).toNat * Nat.pow 2 52 + (q - Nat.pow 2 52))

end Binary64

end Telebridge
