set_option autoImplicit false

/-! # Numbers as bytes

Natural numbers written in base 256, most significant byte first. -/

namespace Telebridge.Octets

/-- The number that some bytes write. -/
def toNat (bytes : List UInt8) : Nat :=
  bytes.foldl (fun n b => n * 256 + b.toNat) 0

/-- The low `count` bytes of a number. -/
def ofNat : Nat → Nat → List UInt8
  | 0, _ => []
  | count + 1, n => ofNat count (n / 256) ++ [UInt8.ofNat (n % 256)]

/-- The bytes of a number without leading zeros; zero is one zero byte. -/
def minimal (n : Nat) : List UInt8 :=
  ofNat (n.log2 / 8 + 1) n

/-- Exactly `width` bytes: zeros in front of a shorter list, the tail of a longer one. -/
def fit (width : Nat) (bytes : List UInt8) : List UInt8 :=
  List.replicate (width - bytes.length) 0 ++ bytes.drop (bytes.length - width)

/-- Byte-wise exclusive or, as long as both lists last. -/
def xor (xs ys : List UInt8) : List UInt8 :=
  List.zipWith (· ^^^ ·) xs ys

end Telebridge.Octets
