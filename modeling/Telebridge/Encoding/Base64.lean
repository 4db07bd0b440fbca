import Telebridge.Text.Blank
set_option autoImplicit false

/-! # Base64

Bytes as letters of a 64-letter alphabet, three bytes to four letters. The unpadded form ends where
the bytes end; the padded form is filled up with `=` to a multiple of four letters. Reading accepts
exactly what writing produces: foreign letters, an impossible length, non-zero spare bits and wrong
padding are refused. -/

namespace Telebridge.Base64

/-- The alphabets differ in their last two letters only. -/
structure Alphabet where
  letter62 : Char
  letter63 : Char

/-- The standard alphabet, ending in `+` and `/`. -/
def standard : Alphabet := ⟨'+', '/'⟩

/-- The alphabet for URLs and file names, ending in `-` and `_`. -/
def urlSafe : Alphabet := ⟨'-', '_'⟩

/-- The letter of a six-bit value. -/
def letter (a : Alphabet) (n : Nat) : Char :=
  if n < 26 then Char.ofNat (65 + n)
  else if n < 52 then Char.ofNat (97 + (n - 26))
  else if n < 62 then Char.ofNat (48 + (n - 52))
  else if n = 62 then a.letter62
  else a.letter63

/-- The six-bit value of a letter. -/
def value? (a : Alphabet) (c : Char) : Option Nat :=
  let n := c.toNat
  if 65 ≤ n ∧ n ≤ 90 then some (n - 65)
  else if 97 ≤ n ∧ n ≤ 122 then some (n - 97 + 26)
  else if 48 ≤ n ∧ n ≤ 57 then some (n - 48 + 52)
  else if c = a.letter62 then some 62
  else if c = a.letter63 then some 63
  else none

/-! ## Without padding -/

/-- The letters of some bytes, without padding. -/
def encode (a : Alphabet) : List UInt8 → List Char
  | [] => []
  | [x] =>
    let n := x.toNat * 16
    [letter a (n / 64), letter a (n % 64)]
  | [x, y] =>
    let n := (x.toNat * 256 + y.toNat) * 4
    [letter a (n / 4096), letter a (n / 64 % 64), letter a (n % 64)]
  | x :: y :: z :: rest =>
    let n := (x.toNat * 256 + y.toNat) * 256 + z.toNat
    letter a (n / 262144) :: letter a (n / 4096 % 64) :: letter a (n / 64 % 64) ::
      letter a (n % 64) :: encode a rest

/-- The bytes written by some letters, without padding. -/
def decode? (a : Alphabet) : List Char → Option (List UInt8)
  | [] => some []
  | [_] => none
  | [p, q] => do
    let n := (← value? a p) * 64 + (← value? a q)
    if n % 16 = 0 then some [UInt8.ofNat (n / 16)] else none
  | [p, q, r] => do
    let n := ((← value? a p) * 64 + (← value? a q)) * 64 + (← value? a r)
    if n % 4 = 0 then some [UInt8.ofNat (n / 1024), UInt8.ofNat (n / 4 % 256)] else none
  | p :: q :: r :: s :: rest => do
    let n := (((← value? a p) * 64 + (← value? a q)) * 64 + (← value? a r)) * 64 + (← value? a s)
    let bytes ← decode? a rest
    some (UInt8.ofNat (n / 65536) :: UInt8.ofNat (n / 256 % 256) :: UInt8.ofNat (n % 256) :: bytes)

/-! ## With padding -/

/-- The number of `=` that fill up `n` letters to a multiple of four. -/
def padding (n : Nat) : Nat :=
  (4 - n % 4) % 4

/-- The letters of some bytes, padded. -/
def encodePadded (a : Alphabet) (bytes : List UInt8) : List Char :=
  let letters := encode a bytes
  letters ++ List.replicate (padding letters.length) '='

/-- The bytes written by some padded letters. -/
def decodePadded? (a : Alphabet) (cs : List Char) : Option (List UInt8) :=
  let letters := Text.dropBack (· = '=') cs
  if cs.length = letters.length + padding letters.length then decode? a letters else none

/-- Reads an unpadded form after dropping any padding at its end. -/
def decodeStripped? (a : Alphabet) (cs : List Char) : Option (List UInt8) :=
  decode? a (Text.dropBack (· = '=') cs)

end Telebridge.Base64
