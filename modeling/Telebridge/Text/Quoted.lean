import Telebridge.Text.Hidden
set_option autoImplicit false

/-! # Quoted text

A text between double quotes, as diagnostics show it. Quotes and backslashes are escaped, the
common control characters have letters, and every other hidden character is written as its code
point in hexadecimal. -/

namespace Telebridge.Text

/-- `\u{…}` with the code point in lower-case hexadecimal, without leading zeros. -/
def codePointEscape (c : Char) : List Char :=
  ['\\', 'u', '\x7b'] ++ Nat.toDigits 16 c.toNat ++ ['\x7d']

/-- How one character is written inside quotes. -/
def quotedChar (c : Char) : List Char :=
  match c with
  | '"' => ['\\', '"']
  | '\\' => ['\\', '\\']
  | '\x00' => ['\\', '0']
  | '\t' => ['\\', 't']
  | '\n' => ['\\', 'n']
  | '\r' => ['\\', 'r']
  | c => if isHidden c then codePointEscape c else [c]

/-- `s` between double quotes. -/
def quote (s : String) : String :=
  String.ofList ('"' :: s.toList.flatMap quotedChar ++ ['"'])

end Telebridge.Text
