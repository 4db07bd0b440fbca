import Telebridge.Encoding.Utf8
set_option autoImplicit false

/-! # Form data

Fields of a submitted form or of a query: `name=value` pairs joined by `&`. A plus sign stands for a
space, `%` with two hexadecimal digits for a byte, and the bytes are read as UTF-8 with U+FFFD for
what is ill-formed. A pair without `=` has an empty value; empty pairs are skipped. -/

namespace Telebridge.Form

/-- The value of a hexadecimal digit. -/
def hexValue? (b : UInt8) : Option Nat :=
  let n := b.toNat
  if 48 ≤ n ∧ n ≤ 57 then some (n - 48)
  else if 65 ≤ n ∧ n ≤ 70 then some (n - 55)
  else if 97 ≤ n ∧ n ≤ 102 then some (n - 87)
  else none

/-- Replaces `%` followed by two hexadecimal digits by the byte they name; other `%` stay. -/
def percentDecode : List UInt8 → List UInt8
  | 37 :: a :: b :: rest =>
    match hexValue? a, hexValue? b with
    | some x, some y => UInt8.ofNat (x * 16 + y) :: percentDecode rest
    | _, _ => 37 :: percentDecode (a :: b :: rest)
  | b :: rest => b :: percentDecode rest
  | [] => []

/-- One encoded name or value. -/
def decodePart (bytes : List UInt8) : String :=
  String.ofList (Utf8.decodeLossy (percentDecode (bytes.map fun b => if b = 43 then 32 else b)))

/-- Splits bytes at every occurrence of `sep`; there is always at least one part. -/
def splitOn (sep : UInt8) : List UInt8 → List (List UInt8)
  | [] => [[]]
  | b :: rest =>
    if b = sep then [] :: splitOn sep rest
    else match splitOn sep rest with
      | part :: parts => (b :: part) :: parts
      | [] => [[b]]

/-- One field from its encoded pair. -/
def field (pair : List UInt8) : String × String :=
  (decodePart (pair.takeWhile (· != 61)), decodePart ((pair.dropWhile (· != 61)).drop 1))

/-- The fields of a form in order. -/
def parse (bytes : List UInt8) : List (String × String) :=
  ((splitOn 38 bytes).filter fun pair => !pair.isEmpty).map field

/-- The value of a field; of several fields with one name the last counts. -/
def value? (fields : List (String × String)) (name : String) : Option String :=
  fields.foldl (fun found f => if f.1 = name then some f.2 else found) none

end Telebridge.Form
