set_option autoImplicit false

/-! # Blanks and trimming

Which characters count as blank, and what trimming removes. A blank is a character with the
Unicode property `White_Space`; zero-width spaces and the byte-order mark are not blank. -/

namespace Telebridge.Text

/-- The characters with the Unicode property `White_Space`. -/
def isBlank (c : Char) : Bool :=
  let n := c.toNat
  (9 ≤ n && n ≤ 13) || n == 0x20 || n == 0x85 || n == 0xA0 || n == 0x1680 ||
    (0x2000 ≤ n && n ≤ 0x200A) || n == 0x2028 || n == 0x2029 || n == 0x202F ||
    n == 0x205F || n == 0x3000

/-- Drops the characters satisfying `p` from the front. -/
def dropFront (p : Char → Bool) (s : List Char) : List Char :=
  s.dropWhile p

/-- Drops the characters satisfying `p` from the back. -/
def dropBack (p : Char → Bool) (s : List Char) : List Char :=
  (s.reverse.dropWhile p).reverse

/-- Drops the characters satisfying `p` from both ends. -/
def dropEnds (p : Char → Bool) (s : List Char) : List Char :=
  dropBack p (dropFront p s)

/-- `s` without the blanks at its ends. -/
def trim (s : String) : String :=
  String.ofList (dropEnds isBlank s.toList)

/-- A text with nothing but blanks, the empty text included. -/
def isBlankText (s : String) : Bool :=
  s.toList.all isBlank

end Telebridge.Text
