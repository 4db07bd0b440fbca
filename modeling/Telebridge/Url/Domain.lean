set_option autoImplicit false

/-! # Domain names in ASCII

A host can be named in any script, and it is written in ASCII. `DomainMapping` stands for the rules of
Unicode for that, with all their tables. What they say of most names needs no tables
(`plainAscii?`). -/

namespace Telebridge.Url

/-- How the name of a host is written in ASCII; some names are refused. -/
class DomainMapping where
  toAscii? : List Char → Option (List Char)

/-- Splits at every dot. -/
def splitDots : List Char → List (List Char)
  | [] => [[]]
  | c :: rest =>
    if c = '.' then [] :: splitDots rest
    else match splitDots rest with
      | part :: parts => (c :: part) :: parts
      | [] => [[c]]

/-! ## Punycode -/

/-- A digit of the variable-length numbers of Punycode. -/
def punyDigit (n : Nat) : Char :=
  if n < 26 then Char.ofNat (97 + n) else Char.ofNat (22 + n)

/-- The bias for the next number. -/
def punyAdapt (delta count : Nat) (first : Bool) : Nat :=
  let delta := if first then delta / 700 else delta / 2
  let delta := delta + delta / count
  let rec shrink : Nat → Nat → Nat → Nat
    | 0, d, k => k + 36 * d / (d + 38)
    | fuel + 1, d, k => if d > 455 then shrink fuel (d / 35) (k + 36) else k + 36 * d / (d + 38)
  shrink 64 delta 0

/-- A variable-length number. -/
def punyNumber (bias : Nat) : Nat → Nat → Nat → List Char
  | 0, _, _ => []
  | fuel + 1, q, k =>
    let t := if k ≤ bias then 1 else if k ≥ bias + 26 then 26 else k - bias
    if q < t then [punyDigit q]
    else punyDigit (t + (q - t) % (36 - t)) :: punyNumber bias fuel ((q - t) / (36 - t)) (k + 36)

/-- The state of the encoder. -/
structure PunyState where
  code : Nat := 128
  delta : Nat := 0
  bias : Nat := 72
  handled : Nat
  output : List Char

/-- Encodes all occurrences of the least code point that is not handled yet. -/
def punyRound (label : List Char) (first : Nat) (s : PunyState) : PunyState :=
  let next := label.foldl
    (fun m c => if s.code ≤ c.toNat ∧ c.toNat < m then c.toNat else m) 0x110000
  let start := { s with code := next, delta := s.delta + (next - s.code) * (s.handled + 1) }
  let done := label.foldl (fun s c =>
    if c.toNat < next then { s with delta := s.delta + 1 }
    else if c.toNat = next then
      { s with
        output := s.output ++ punyNumber s.bias 16 s.delta 36
        bias := punyAdapt s.delta (s.handled + 1) (s.handled = first)
        delta := 0
        handled := s.handled + 1 }
    else s) start
  { done with code := next + 1, delta := done.delta + 1 }

/-- The Punycode form of a label. -/
def punycode (label : List Char) : List Char :=
  let basic := label.filter fun c => c.toNat < 128
  let rest := label.filter fun c => 128 ≤ c.toNat
  let start : PunyState :=
    { handled := basic.length, output := if basic.isEmpty then [] else basic ++ ['-'] }
  let rec go : Nat → PunyState → PunyState
    | 0, s => s
    | fuel + 1, s =>
      if s.handled < label.length then go fuel (punyRound label basic.length s) else s
  (go rest.length start).output

/-- A label in ASCII: as it is in lower case, or in Punycode. -/
def asciiLabel (label : List Char) : List Char :=
  let label := label.map Char.toLower
  if label.all fun c => c.toNat < 128 then label else "xn--".toList ++ punycode label

/-! ## Plain names -/

/-- The full stops of other scripts count as dots. -/
def plainDot (c : Char) : Char :=
  if c = '\u3002' || c = '\uff0e' || c = '\uff61' then '.' else c

/-- A name whose characters are mapped at most to lower case, in ASCII. The replacement character is
not a character of any name. -/
def plainAscii? (name : List Char) : Option (List Char) :=
  if name.contains '\ufffd' then none
  else some ((splitDots (name.map plainDot)).map asciiLabel |>.intersperse ['.'] |>.flatten)

instance : DomainMapping where
  toAscii? := plainAscii?

end Telebridge.Url
