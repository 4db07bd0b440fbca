import Telebridge.Number.Binary64
import Telebridge.Text.Decimal
set_option autoImplicit false

/-! # Floating-point numbers with a fixed number of decimals

The exact binary value is rounded to the given number of decimals, a tie to the even digit. The
sign of a negative zero is kept. -/

namespace Telebridge.Binary64

/-- The digits of `n` with a point before the last `places` of them. -/
def pointedDigits (n places : Nat) : List Char :=
  Text.natDigits (n / Nat.pow 10 places) ++ ['.'] ++
    let tail := Text.natDigits (n % Nat.pow 10 places)
    List.replicate (places - tail.length) '0' ++ tail

/-- The magnitude of a finite number times `10 ^ places`, rounded. -/
def scaled (x : Binary64) (places : Nat) : Nat :=
  roundDiv (x.mantissa * Nat.pow 2 x.exponent.toNat * Nat.pow 10 places)
    (Nat.pow 2 (-x.exponent).toNat)

/-- `x` with `places` decimals, at least one. -/
def fixed (x : Binary64) (places : Nat) : String :=
  let sign := if x.isNegative then ['-'] else []
  String.ofList <|
    if x.isNaN then "NaN".toList
    else if x.isInfinite then sign ++ "inf".toList
    else sign ++ pointedDigits (x.scaled places) places

end Telebridge.Binary64
