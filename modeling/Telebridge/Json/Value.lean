set_option autoImplicit false

/-! # JSON values

A JSON value keeps its strings as they stand between the quotes, so that nothing is lost by reading:
`Json.Text.raw` holds the characters, `none` marking bytes that are not UTF-8, and
`Json.Text.value?` is the text they mean. Numbers written as plain integers are kept as integers,
others as they were written. Objects keep repeated keys. -/

namespace Telebridge

namespace Json

/-- A string as it stands between the quotes. -/
structure Text where
  raw : List (Option Char)
deriving DecidableEq, Inhabited

end Json

/-- A JSON value. -/
inductive Json where
  | null
  | bool (b : Bool)
  | integer (n : Int)
  | decimal (literal : List Char)
  | text (t : Json.Text)
  | array (items : List Json)
  | object (fields : List (Json.Text × Json))
deriving Inhabited

namespace Json

/-! ## Escapes -/

/-- The value of a hexadecimal digit. -/
def hexValue? (c : Char) : Option Nat :=
  if '0' ≤ c ∧ c ≤ '9' then some (c.toNat - 48)
  else if 'A' ≤ c ∧ c ≤ 'F' then some (c.toNat - 55)
  else if 'a' ≤ c ∧ c ≤ 'f' then some (c.toNat - 87)
  else none

/-- The value of four hexadecimal digits. -/
def hex4? (a b c d : Option Char) : Option Nat := do
  some ((((← hexValue? (← a)) * 16 + (← hexValue? (← b))) * 16 + (← hexValue? (← c))) * 16 +
    (← hexValue? (← d)))

/-- The character of a one-letter escape. -/
def shortEscape? : Char → Option Char
  | '"' => some '"'
  | '\\' => some '\\'
  | '/' => some '/'
  | 'b' => some '\x08'
  | 'f' => some '\x0c'
  | 'n' => some '\n'
  | 'r' => some '\r'
  | 't' => some '\t'
  | _ => none

/-- The text that the inside of a string means. A surrogate must be followed by its partner. -/
def unescape? : List (Option Char) → Option (List Char)
  | [] => some []
  | none :: _ => none
  | some '\\' :: some 'u' :: a :: b :: c :: d :: rest => do
    let n ← hex4? a b c d
    if 0xD800 ≤ n ∧ n ≤ 0xDBFF then
      match rest with
      | some '\\' :: some 'u' :: e :: f :: g :: h :: rest' =>
        let m ← hex4? e f g h
        if 0xDC00 ≤ m ∧ m ≤ 0xDFFF then
          (unescape? rest').map (Char.ofNat (0x10000 + (n - 0xD800) * 1024 + (m - 0xDC00)) :: ·)
        else none
      | _ => none
    else if 0xDC00 ≤ n ∧ n ≤ 0xDFFF then none
    else (unescape? rest).map (Char.ofNat n :: ·)
  | some '\\' :: some e :: rest => do
    let c ← shortEscape? e
    (unescape? rest).map (c :: ·)
  | some '\\' :: _ => none
  | some c :: rest => (unescape? rest).map (c :: ·)

/-- A digit in lower-case hexadecimal. -/
def hexDigit (n : Nat) : Char :=
  Nat.digitChar (n % 16)

/-- How one character is written inside a string. -/
def escapeChar (c : Char) : List Char :=
  match c with
  | '"' => ['\\', '"']
  | '\\' => ['\\', '\\']
  | '\x08' => ['\\', 'b']
  | '\x0c' => ['\\', 'f']
  | '\n' => ['\\', 'n']
  | '\r' => ['\\', 'r']
  | '\t' => ['\\', 't']
  | c =>
    if c.toNat < 0x20 then ['\\', 'u', '0', '0', hexDigit (c.toNat / 16), hexDigit c.toNat] else [c]

/-- The string for a text, with escapes where they are needed. -/
def Text.ofString (s : String) : Text :=
  ⟨(s.toList.flatMap escapeChar).map some⟩

/-- The text a string means, if it means one. -/
def Text.value? (t : Text) : Option String :=
  (unescape? t.raw).map String.ofList

/-- The value of a text. -/
def str (s : String) : Json :=
  .text (Text.ofString s)

/-- An object from its fields in order. -/
def obj (fields : List (String × Json)) : Json :=
  .object (fields.map fun f => (Text.ofString f.1, f.2))

end Json

end Telebridge
