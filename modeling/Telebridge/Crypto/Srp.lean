import Telebridge.Crypto.Sha256
import Telebridge.Crypto.Pbkdf2
set_option autoImplicit false

/-! # Secure remote password

The proof that a client knows the account password, without sending it. With the group of powers of
`g` modulo `p`, the server's challenge `gb` and a client secret `a`, the client sends `g ^ a` and a
hash over the shared secret `(gb - k * g ^ x) ^ (a + u * x)`, where `x` is derived from the password.
All numbers are written as 256 bytes before they are hashed. -/

namespace Telebridge.Srp

/-- Powers modulo `m`, by squaring. -/
def powMod (base exponent m : Nat) : Nat :=
  if exponent = 0 then 1 % m
  else
    let half := powMod (base * base % m) (exponent / 2) m
    if exponent % 2 = 1 then base * half % m else half
termination_by exponent
decreasing_by omega

/-- A hash with the salt before and after the data. -/
def salted (data salt : List UInt8) : List UInt8 :=
  Sha256.hash (salt ++ data ++ salt)

/-- The number of rounds that stretch a password. -/
def stretchRounds : Nat := 100000

/-- The password as a number: salted hashes, stretched in between. -/
def passwordHash (password salt1 salt2 : List UInt8) : List UInt8 :=
  let first := salted (salted password salt1) salt2
  salted (Pbkdf2.derive first salt1 stretchRounds) salt2

/-- A number as 256 bytes. -/
def wide (bytes : List UInt8) : List UInt8 :=
  Octets.fit 256 bytes

/-- What the server gives: two salts, the generator, the modulus and its half of the key. -/
structure Challenge where
  salt1 : List UInt8
  salt2 : List UInt8
  g : Int32
  p : List UInt8
  gb : List UInt8

/-- What the client answers: the proof and its half of the key. -/
structure Answer where
  m1 : List UInt8
  ga : List UInt8
deriving DecidableEq

/-- The answer to a challenge with the client secret `a`; none if the modulus is zero. -/
def answer? (c : Challenge) (a password : List UInt8) : Option Answer :=
  let p := Octets.toNat c.p
  if p = 0 then none
  else
    let gb := wide c.gb
    let a := Octets.toNat (wide a)
    let gHash := wide (Octets.ofNat 4 (c.g.toUInt32.toNat))
    let g := (c.g.toInt % p).toNat
    let k := Octets.toNat (Sha256.hash (c.p ++ gHash))
    let ga := wide (Octets.minimal (powMod g a p))
    let u := Octets.toNat (Sha256.hash (ga ++ gb))
    let x := Octets.toNat (passwordHash password c.salt1 c.salt2)
    let v := powMod g x p
    let t := (((Octets.toNat gb : Int) - (k * v % p : Nat)) % p).toNat
    let s := powMod t (a + u * x) p
    let ka := Sha256.hash (wide (Octets.minimal s))
    let m1 := Sha256.hash (Octets.xor (Sha256.hash c.p) (Sha256.hash gHash) ++
      Sha256.hash c.salt1 ++ Sha256.hash c.salt2 ++ ga ++ gb ++ ka)
    some ⟨m1, ga⟩

end Telebridge.Srp
