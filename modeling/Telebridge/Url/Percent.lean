import Telebridge.Encoding.Utf8
set_option autoImplicit false

/-! # Percent encoding in URLs

Which characters each part of a URL writes as percent-encoded bytes. Everything outside printable
ASCII is encoded everywhere; the parts differ in the punctuation they add. -/

namespace Telebridge.Url

/-- A hexadecimal digit in upper case. -/
def upperHex (n : Nat) : Char :=
  (Nat.digitChar (n % 16)).toUpper

/-- One byte, percent-encoded. -/
def percentByte (b : UInt8) : List Char :=
  ['%', upperHex (b.toNat / 16), upperHex b.toNat]

/-- Control characters and everything beyond ASCII. -/
def inControlSet (c : Char) : Bool :=
  c.toNat < 0x20 || 0x7E < c.toNat

/-- What a fragment encodes. -/
def inFragmentSet (c : Char) : Bool :=
  inControlSet c || [' ', '"', '<', '>', '\x60'].contains c

/-- What a query encodes. -/
def inQuerySet (c : Char) : Bool :=
  inControlSet c || [' ', '"', '#', '<', '>'].contains c

/-- What the query of a web address encodes. -/
def inSpecialQuerySet (c : Char) : Bool :=
  inQuerySet c || c = '\''

/-- What a path encodes. -/
def inPathSet (c : Char) : Bool :=
  inQuerySet c || ['?', '^', '\x60', '\x7b', '\x7d'].contains c

/-- What a user name or password encodes. -/
def inUserinfoSet (c : Char) : Bool :=
  inPathSet c || ['/', ':', ';', '=', '@', '[', '\\', ']', '|'].contains c

/-- Encodes the characters of a set. -/
def percentEncode (encoded : Char → Bool) (s : List Char) : List Char :=
  s.flatMap fun c =>
    if encoded c then (Utf8.encode (String.ofList [c])).data.toList.flatMap percentByte else [c]

end Telebridge.Url
