import Telebridge.Encoding.Octets
set_option autoImplicit false

/-! # SHA-256

The hash function SHA-256 on lists of bytes. A message is padded to blocks of 64 bytes, and each
block is mixed into a state of eight 32-bit words by 64 rounds. -/

namespace Telebridge.Sha256

/-- Eight words: the chaining value, and at the end the digest. -/
structure State where
  a : UInt32
  b : UInt32
  c : UInt32
  d : UInt32
  e : UInt32
  f : UInt32
  g : UInt32
  h : UInt32
deriving DecidableEq, Inhabited

/-- The sixteen words of the message schedule that the next rounds need. -/
structure Window where
  w0 : UInt32
  w1 : UInt32
  w2 : UInt32
  w3 : UInt32
  w4 : UInt32
  w5 : UInt32
  w6 : UInt32
  w7 : UInt32
  w8 : UInt32
  w9 : UInt32
  w10 : UInt32
  w11 : UInt32
  w12 : UInt32
  w13 : UInt32
  w14 : UInt32
  w15 : UInt32
deriving Inhabited

/-- The state before the first block: the square roots of the first eight primes. -/
def initial : State :=
  ⟨0x6a09e667, 0xbb67ae85, 0x3c6ef372, 0xa54ff53a,
   0x510e527f, 0x9b05688c, 0x1f83d9ab, 0x5be0cd19⟩

/-- One constant for each round: the cube roots of the first 64 primes. -/
def roundConstants : List UInt32 := [
  0x428a2f98, 0x71374491, 0xb5c0fbcf, 0xe9b5dba5, 0x3956c25b, 0x59f111f1, 0x923f82a4, 0xab1c5ed5,
  0xd807aa98, 0x12835b01, 0x243185be, 0x550c7dc3, 0x72be5d74, 0x80deb1fe, 0x9bdc06a7, 0xc19bf174,
  0xe49b69c1, 0xefbe4786, 0x0fc19dc6, 0x240ca1cc, 0x2de92c6f, 0x4a7484aa, 0x5cb0a9dc, 0x76f988da,
  0x983e5152, 0xa831c66d, 0xb00327c8, 0xbf597fc7, 0xc6e00bf3, 0xd5a79147, 0x06ca6351, 0x14292967,
  0x27b70a85, 0x2e1b2138, 0x4d2c6dfc, 0x53380d13, 0x650a7354, 0x766a0abb, 0x81c2c92e, 0x92722c85,
  0xa2bfe8a1, 0xa81a664b, 0xc24b8b70, 0xc76c51a3, 0xd192e819, 0xd6990624, 0xf40e3585, 0x106aa070,
  0x19a4c116, 0x1e376c08, 0x2748774c, 0x34b0bcb5, 0x391c0cb3, 0x4ed8aa4a, 0x5b9cca4f, 0x682e6ff3,
  0x748f82ee, 0x78a5636f, 0x84c87814, 0x8cc70208, 0x90befffa, 0xa4506ceb, 0xbef9a3f7, 0xc67178f2]

/-- Rotation to the right. -/
@[inline] def rotr (x : UInt32) (n : UInt32) : UInt32 :=
  (x >>> n) ||| (x <<< (32 - n))

/-- Appends the next word of the message schedule and drops the first. -/
def Window.shift (w : Window) : Window :=
  let s0 := rotr w.w1 7 ^^^ rotr w.w1 18 ^^^ (w.w1 >>> 3)
  let s1 := rotr w.w14 17 ^^^ rotr w.w14 19 ^^^ (w.w14 >>> 10)
  ⟨w.w1, w.w2, w.w3, w.w4, w.w5, w.w6, w.w7, w.w8,
   w.w9, w.w10, w.w11, w.w12, w.w13, w.w14, w.w15, s1 + w.w9 + s0 + w.w0⟩

/-- One round with its constant and its message word. -/
def round (s : State) (k w : UInt32) : State :=
  let s1 := rotr s.e 6 ^^^ rotr s.e 11 ^^^ rotr s.e 25
  let ch := (s.e &&& s.f) ^^^ (~~~s.e &&& s.g)
  let t1 := s.h + s1 + ch + k + w
  let s0 := rotr s.a 2 ^^^ rotr s.a 13 ^^^ rotr s.a 22
  let maj := (s.a &&& s.b) ^^^ (s.a &&& s.c) ^^^ (s.b &&& s.c)
  ⟨t1 + (s0 + maj), s.a, s.b, s.c, s.d + t1, s.e, s.f, s.g⟩

/-- All rounds. -/
def rounds : List UInt32 → State → Window → State
  | [], s, _ => s
  | k :: ks, s, w => rounds ks (round s k w.w0) w.shift

/-- Mixes one block into the state. -/
def compress (s : State) (block : Window) : State :=
  let t := rounds roundConstants s block
  ⟨s.a + t.a, s.b + t.b, s.c + t.c, s.d + t.d, s.e + t.e, s.f + t.f, s.g + t.g, s.h + t.h⟩

/-- The bytes of a word, most significant first. -/
def wordBytes (x : UInt32) : List UInt8 :=
  (Octets.ofNat 4 x.toNat)

/-- The words of some bytes, 4 at a time. -/
def words : List UInt8 → List UInt32
  | b0 :: b1 :: b2 :: b3 :: rest =>
    UInt32.ofNat (Octets.toNat [b0, b1, b2, b3]) :: words rest
  | _ => []

/-- Mixes whole blocks of words into the state, from left to right. -/
def absorb (s : State) : List UInt32 → State
  | w0 :: w1 :: w2 :: w3 :: w4 :: w5 :: w6 :: w7 :: w8 :: w9 :: w10 :: w11 :: w12 :: w13 :: w14 :: w15 :: rest =>
    absorb (compress s ⟨w0, w1, w2, w3, w4, w5, w6, w7, w8, w9, w10, w11, w12, w13, w14, w15⟩) rest
  | _ => s

/-- The bytes after a message of `n` bytes that fill its last block: one bit, zeros, and the length. -/
def padding (n : Nat) : List UInt8 :=
  let zeros := (119 - n % 64) % 64
  0x80 :: List.replicate zeros 0 ++ Octets.ofNat 8 (n * 8)

/-- The digest as bytes. -/
def State.bytes (s : State) : List UInt8 :=
  [s.a, s.b, s.c, s.d, s.e, s.f, s.g, s.h].flatMap wordBytes

/-- The state after a message that continues one of `before` bytes, a multiple of the block size,
which led to the state `s`. -/
def finish (s : State) (before : Nat) (message : List UInt8) : State :=
  absorb s (words (message ++ padding (before + message.length)))

/-- The SHA-256 digest of a message. -/
def hash (message : List UInt8) : List UInt8 :=
  (finish initial 0 message).bytes

end Telebridge.Sha256
