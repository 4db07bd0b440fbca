import Telebridge.Crypto.Sha512
set_option autoImplicit false

/-! # Key stretching with HMAC-SHA-512

`Pbkdf2.derive` turns a password and a salt into 64 bytes by applying a keyed hash many times and
adding up the results. The key enters the hash only through the two states that its padded blocks
lead to, so those are computed once. -/

namespace Telebridge

/-! ## The keyed hash -/

namespace Hmac

/-- A key: the hash states after its inner and its outer block. -/
structure Key where
  inner : Sha512.State
  outer : Sha512.State

/-- The block of a key, each byte changed by `mask`. -/
def block (key : List UInt8) (mask : UInt8) : List UInt8 :=
  let key := if key.length > 128 then Sha512.hash key else key
  (key ++ List.replicate (128 - key.length) 0).map (· ^^^ mask)

/-- The states for a key. -/
def Key.ofBytes (key : List UInt8) : Key :=
  { inner := Sha512.absorb Sha512.initial (Sha512.words (block key 0x36))
    outer := Sha512.absorb Sha512.initial (Sha512.words (block key 0x5c)) }

/-- The last block of a message that is one block and one digest long. -/
def digestBlock (d : Sha512.State) : Sha512.Window :=
  ⟨d.a, d.b, d.c, d.d, d.e, d.f, d.g, d.h, 0x8000000000000000, 0, 0, 0, 0, 0, 0, 1536⟩

/-- The keyed hash of a message. -/
def Key.mac (k : Key) (message : List UInt8) : Sha512.State :=
  Sha512.compress k.outer (digestBlock (Sha512.finish k.inner 128 message))

/-- The keyed hash of a digest. -/
def Key.macDigest (k : Key) (d : Sha512.State) : Sha512.State :=
  Sha512.compress k.outer (digestBlock (Sha512.compress k.inner (digestBlock d)))

end Hmac

/-! ## Stretching -/

namespace Pbkdf2

/-- Word-wise exclusive or. -/
def mix (s t : Sha512.State) : Sha512.State :=
  ⟨s.a ^^^ t.a, s.b ^^^ t.b, s.c ^^^ t.c, s.d ^^^ t.d,
   s.e ^^^ t.e, s.f ^^^ t.f, s.g ^^^ t.g, s.h ^^^ t.h⟩

/-- Applies the keyed hash `n` more times to `u`, adding each result to `sum`. -/
def stretch (k : Hmac.Key) : Nat → Sha512.State → Sha512.State → Sha512.State
  | 0, _, sum => sum
  | n + 1, u, sum =>
    let u' := k.macDigest u
    stretch k n u' (mix sum u')

/-- The first 64 bytes derived from a password and a salt with at least one iteration. -/
def derive (password salt : List UInt8) (iterations : Nat) : List UInt8 :=
  let k := Hmac.Key.ofBytes password
  let first := k.mac (salt ++ Octets.ofNat 4 1)
  (stretch k (iterations - 1) first first).bytes

end Pbkdf2

end Telebridge
