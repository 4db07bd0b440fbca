import Telebridge.Json.Value
set_option autoImplicit false

/-! # Reading JSON text

A recursive-descent reader of JSON: one value with blanks around it and nothing after it. The input is
a list of characters in which `none` stands for bytes that are not UTF-8; those may occur inside
strings only. A string is checked for well-formed escapes and for control characters, but what it
means is left to `Json.Text.value?`. Minus zero counts as a decimal. -/

namespace Telebridge.Json

/-- A character of the input, or a place where the bytes are not UTF-8. -/
abbrev Symbol := Option Char

/-- The blanks of JSON. -/
def isBlank (c : Symbol) : Bool :=
  c = some ' ' || c = some '\n' || c = some '\t' || c = some '\r'

/-- Skips blanks. -/
def skipBlanks (cs : List Symbol) : List Symbol :=
  cs.dropWhile isBlank

/-- An ASCII digit. -/
def isDigit : Symbol → Bool
  | some c => c.isDigit
  | none => false

/-- The rest after a word. -/
def word? : List Char → List Symbol → Option (List Symbol)
  | [], cs => some cs
  | w :: ws, c :: cs => if c = some w then word? ws cs else none
  | _ :: _, [] => none

/-- The inside of a string and the rest after its closing quote. -/
def string? : List Symbol → Option (List Symbol × List Symbol)
  | [] => none
  | some '"' :: rest => some ([], rest)
  | some '\\' :: some 'u' :: a :: b :: c :: d :: rest => do
    let _ ← hex4? a b c d
    let (inside, rest') ← string? rest
    some (some '\\' :: some 'u' :: a :: b :: c :: d :: inside, rest')
  | some '\\' :: some e :: rest => do
    let _ ← shortEscape? e
    let (inside, rest') ← string? rest
    some (some '\\' :: some e :: inside, rest')
  | some '\\' :: _ => none
  | none :: rest => (string? rest).map fun r => (none :: r.1, r.2)
  | some c :: rest =>
    if c.toNat < 0x20 then none else (string? rest).map fun r => (some c :: r.1, r.2)

/-- The digits at the front and the rest. -/
def digits (cs : List Symbol) : List Char × List Symbol :=
  ((cs.takeWhile isDigit).filterMap id, cs.dropWhile isDigit)

/-- The decimals of a number: nothing, or a point and at least one digit. -/
def decimals? (cs : List Symbol) : Option (List Char × List Symbol) :=
  match cs with
  | some '.' :: rest =>
    let (ds, rest') := digits rest
    if ds.isEmpty then none else some ('.' :: ds, rest')
  | _ => some ([], cs)

/-- The exponent of a number: nothing, or a letter, an optional sign and at least one digit. -/
def power? (cs : List Symbol) : Option (List Char × List Symbol) :=
  match cs with
  | some 'e' :: rest | some 'E' :: rest =>
    let (sign, rest) := match rest with
      | some '+' :: r => (['+'], r)
      | some '-' :: r => (['-'], r)
      | _ => ([], rest)
    let (ds, rest') := digits rest
    if ds.isEmpty then none else some ('e' :: sign ++ ds, rest')
  | _ => some ([], cs)

/-- An unsigned number, given its sign: no leading zeros. -/
def number? (negative : Bool) (cs : List Symbol) : Option (Json × List Symbol) := do
  let (whole, rest) := digits cs
  if whole.isEmpty || (whole.head? = some '0' && whole.length > 1) then none
  let (decimals, rest) ← decimals? rest
  let (power, rest) ← power? rest
  let n := Nat.ofDigitChars 10 whole 0
  if decimals.isEmpty && power.isEmpty && !(negative && n = 0) then
    some (.integer (if negative then -(n : Int) else n), rest)
  else
    some (.decimal ((if negative then ['-'] else []) ++ whole ++ decimals ++ power), rest)

mutual

/-- A value after blanks. The first argument bounds the steps. -/
def value? : Nat → List Symbol → Option (Json × List Symbol)
  | 0, _ => none
  | fuel + 1, cs =>
    match skipBlanks cs with
    | some 'n' :: rest => (word? "ull".toList rest).map fun r => (.null, r)
    | some 't' :: rest => (word? "rue".toList rest).map fun r => (.bool true, r)
    | some 'f' :: rest => (word? "alse".toList rest).map fun r => (.bool false, r)
    | some '"' :: rest => (string? rest).map fun r => (.text ⟨r.1⟩, r.2)
    | some '-' :: rest => number? true rest
    | some '[' :: rest =>
      match skipBlanks rest with
      | some ']' :: rest' => some (.array [], rest')
      | rest' => (items? fuel rest').map fun r => (.array r.1, r.2)
    | some '\x7b' :: rest =>
      match skipBlanks rest with
      | some '\x7d' :: rest' => some (.object [], rest')
      | rest' => (fields? fuel rest').map fun r => (.object r.1, r.2)
    | rest => number? false rest

/-- The items of an array up to its closing bracket. -/
def items? : Nat → List Symbol → Option (List Json × List Symbol)
  | 0, _ => none
  | fuel + 1, cs => do
    let (item, rest) ← value? fuel cs
    match skipBlanks rest with
    | some ',' :: rest' =>
      let (items, rest'') ← items? fuel rest'
      some (item :: items, rest'')
    | some ']' :: rest' => some ([item], rest')
    | _ => none

/-- The fields of an object up to its closing brace. -/
def fields? : Nat → List Symbol → Option (List (Text × Json) × List Symbol)
  | 0, _ => none
  | fuel + 1, cs => do
    match skipBlanks cs with
    | some '"' :: rest =>
      let (key, rest) ← string? rest
      match skipBlanks rest with
      | some ':' :: rest =>
        let (item, rest) ← value? fuel rest
        match skipBlanks rest with
        | some ',' :: rest' =>
          let (fields, rest'') ← fields? fuel rest'
          some ((⟨key⟩, item) :: fields, rest'')
        | some '\x7d' :: rest' => some ([(⟨key⟩, item)], rest')
        | _ => none
      | _ => none
    | _ => none

end

/-- One value with blanks around it and nothing else. -/
def ofSymbols? (cs : List Symbol) : Option Json := do
  let (v, rest) ← value? (cs.length + 1) cs
  if (skipBlanks rest).isEmpty then some v else none

/-- Reads a text. -/
def ofString? (s : String) : Option Json :=
  ofSymbols? (s.toList.map some)

end Telebridge.Json
