import Telebridge.Number.Binary64
import Telebridge.Text.Decimal
set_option autoImplicit false

/-! # Shortest decimal text of a floating-point number

The digits are the fewest that read back as the same number, and of those the nearest to it.
Magnitudes from `10 ^ -4` up to `10 ^ 16` are written positionally with at least one decimal,
others with an exponent. -/

namespace Telebridge.Binary64

/-- A comparison of `a * 2 ^ e` with `b * 10 ^ d`: is the first at most the second? -/
def scaledLe (a : Nat) (e : Int) (b : Nat) (d : Int) : Bool :=
  a * Nat.pow 2 e.toNat * Nat.pow 10 (-d).toNat ≤ b * Nat.pow 10 d.toNat * Nat.pow 2 (-e).toNat

/-- A comparison of `a * 2 ^ e` with `b * 10 ^ d`: is the first at least the second? -/
def scaledGe (a : Nat) (e : Int) (b : Nat) (d : Int) : Bool :=
  b * Nat.pow 10 d.toNat * Nat.pow 2 (-e).toNat ≤ a * Nat.pow 2 e.toNat * Nat.pow 10 (-d).toNat

/-- The reals that round to a positive finite number lie between two bounds, each a natural number
times `2 ^ scale`. The bounds themselves round to it exactly when the mantissa is even. -/
structure RoundingInterval where
  low : Nat
  middle : Nat
  high : Nat
  scale : Int
  closed : Bool

/-- The rounding interval of a positive finite number. -/
def roundingInterval (x : Binary64) : RoundingInterval :=
  let m := x.mantissa
  let boundary := x.fraction = 0 && x.biasedExponent > 1
  { low := if boundary then 4 * m - 1 else 4 * m - 2
    middle := 4 * m
    high := 4 * m + 2
    scale := x.exponent - 2
    closed := m % 2 = 0 }

/-- Whether `digits * 10 ^ power` lies in the interval. -/
def RoundingInterval.holds (i : RoundingInterval) (digits : Nat) (power : Int) : Bool :=
  if i.closed then
    scaledLe i.low i.scale digits power && scaledGe i.high i.scale digits power
  else
    !scaledGe i.low i.scale digits power && !scaledLe i.high i.scale digits power

/-- The greatest natural number `n` with `n * 10 ^ power` at most the middle of the interval. -/
def RoundingInterval.floorAt (i : RoundingInterval) (power : Int) : Nat :=
  (i.middle * Nat.pow 2 i.scale.toNat * Nat.pow 10 (-power).toNat) /
    (Nat.pow 10 power.toNat * Nat.pow 2 (-i.scale).toNat)

/-- The nearer of the two neighbours of the middle on the grid of multiples of `10 ^ power` that lie
in the interval, if one does; the lower one when both are equally near and it is even. -/
def RoundingInterval.nearestAt? (i : RoundingInterval) (power : Int) : Option Nat :=
  let below := i.floorAt power
  let above := below + 1
  match i.holds below power && below > 0, i.holds above power with
  | false, false => none
  | true, false => some below
  | false, true => some above
  | true, true =>
    -- the middle against the midpoint of the two neighbours
    let twice := 2 * i.middle
    let sum := below + above
    if !scaledGe twice i.scale sum power then some below
    else if !scaledLe twice i.scale sum power then some above
    else if below % 2 = 0 then some below else some above

/-- The number of decimal digits before the point of the middle (nonpositive for small numbers). -/
def RoundingInterval.magnitude (i : RoundingInterval) : Int :=
  let num := i.middle * Nat.pow 2 i.scale.toNat
  let den := Nat.pow 2 (-i.scale).toNat
  if num ≥ den then ((Text.natDigits (num / den)).length : Int)
  else
    -- `den / num` has `k` digits: the number lies between `10 ^ -k` and `10 ^ (1 - k)`
    let k : Int := (Text.natDigits (den / num)).length
    if num * Nat.pow 10 (k - 1).toNat = den then 2 - k else 1 - k

/-- Tries grids with more and more digits; the digits and the power of ten of the first hit. -/
def RoundingInterval.search (i : RoundingInterval) (top : Int) : Nat → Nat → Nat × Int
  | 0, count => (i.floorAt (top - count), top - count)
  | tries + 1, count =>
    match i.nearestAt? (top - count) with
    | some n => (n, top - count)
    | none => i.search top tries (count + 1)

/-- Drops trailing zeros of the digits, raising the power of ten. -/
def dropTrailingZeros : Nat → Nat → Int → Nat × Int
  | 0, n, p => (n, p)
  | tries + 1, n, p =>
    if n % 10 = 0 && n != 0 then dropTrailingZeros tries (n / 10) (p + 1) else (n, p)

/-- The shortest digits of a positive finite number, and the power of ten that scales them. -/
def shortestDigits (x : Binary64) : Nat × Int :=
  let i := x.roundingInterval
  let (n, p) := i.search i.magnitude 17 1
  dropTrailingZeros 20 n p

/-- Digits with a point `point` places from the left, and at least one decimal. -/
def positional (digits : List Char) (point : Int) : List Char :=
  if point ≤ 0 then ['0', '.'] ++ List.replicate (-point).toNat '0' ++ digits
  else if point.toNat ≥ digits.length then
    digits ++ List.replicate (point.toNat - digits.length) '0' ++ ['.', '0']
  else digits.take point.toNat ++ ['.'] ++ digits.drop point.toNat

/-- Digits with a point after the first, if there are more, and a power of ten. -/
def exponential (digits : List Char) (power : Int) : List Char :=
  match digits with
  | [d] => [d, 'e'] ++ Text.intDigits power
  | d :: rest => [d, '.'] ++ rest ++ ['e'] ++ Text.intDigits power
  | [] => []

/-- The shortest text that reads back as `x`. -/
def shortest (x : Binary64) : String :=
  let sign := if x.isNegative then ['-'] else []
  let body :=
    if x.isNaN then "NaN".toList
    else if x.isInfinite then sign ++ "inf".toList
    else if x.mantissa = 0 then sign ++ "0.0".toList
    else
      let (n, p) := x.shortestDigits
      let digits := Text.natDigits n
      let point := p + digits.length
      sign ++ if -3 ≤ point ∧ point ≤ 16 then positional digits point else exponential digits (point - 1)
  String.ofList body

end Telebridge.Binary64
