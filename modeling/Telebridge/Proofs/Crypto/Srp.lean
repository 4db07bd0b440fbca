import Mathlib.Data.Int.ModEq
import Mathlib.Tactic.Ring
import Telebridge.Crypto.Srp
import Telebridge.Proofs.Encoding.Octets
set_option autoImplicit false

/-! # Client and server agree

The server keeps the `verifier` of a password, draws a secret exponent, and sends its half of the key.
From the client's half it computes the key in its own way (`serverKey`), without the password. The
client computes the same one, because with `v = g ^ x` both are powers of `g`:
`((k * v + g ^ b) - k * v) ^ (a + u * x) = (g ^ a * v ^ u) ^ b`. This holds modulo any number, prime or
not; nothing is needed of the hash functions either. -/

namespace Telebridge.Srp

/-- A power modulo `m` by squaring is the power modulo `m`. -/
theorem powMod_eq (base exponent m : Nat) : powMod base exponent m = base ^ exponent % m := by
  induction exponent using Nat.strongRecOn generalizing base with
  | ind exponent ih =>
    rw [powMod]
    by_cases h0 : exponent = 0
    · rw [if_pos h0, h0, pow_zero]
    · rw [if_neg h0]
      have hsquare : powMod (base * base % m) (exponent / 2) m = base ^ (2 * (exponent / 2)) % m := by
        rw [ih (exponent / 2) (by omega), ← Nat.pow_mod, pow_mul, pow_two]
      simp only [hsquare]
      by_cases hodd : exponent % 2 = 1
      · have hsplit : exponent = 2 * (exponent / 2) + 1 := by omega
        rw [if_pos hodd, Nat.mul_mod_mod, ← pow_succ', ← hsplit]
      · have hsplit : exponent = 2 * (exponent / 2) := by omega
        rw [if_neg hodd, ← hsplit]

/-- A number as 256 bytes. -/
def bytes256 (n : Nat) : List UInt8 :=
  Octets.ofNat 256 n

theorem wide_eq (bytes : List UInt8) : wide bytes = bytes256 (Octets.toNat bytes) :=
  Octets.fit_eq_ofNat 256 bytes

theorem wide_minimal (n : Nat) : wide (Octets.minimal n) = bytes256 n := by
  rw [wide_eq, Octets.toNat_minimal]

/-! ## The server's side -/

namespace Challenge

variable (c : Challenge)

/-- The modulus as a number. -/
def modulus : Nat :=
  Octets.toNat c.p

/-- The generator as a number. -/
def generator : Nat :=
  c.g.toInt.toNat

/-- The number that stands for a password. -/
def exponent (password : List UInt8) : Nat :=
  Octets.toNat (passwordHash password c.salt1 c.salt2)

/-- What the server keeps of a password. -/
def verifier (password : List UInt8) : Nat :=
  c.generator ^ c.exponent password % c.modulus

/-- The factor that hides the verifier in the server's half of the key. -/
def multiplier : Nat :=
  Octets.toNat (Sha256.hash (c.p ++ bytes256 c.generator))

/-- The client's half of the key for its secret. -/
def clientHalf (a : Nat) : Nat :=
  c.generator ^ a % c.modulus

/-- The server's half of the key for a verifier and its secret. -/
def serverHalf (v b : Nat) : Nat :=
  (c.multiplier * v + c.generator ^ b) % c.modulus

/-- The number that both halves are mixed with. -/
def scrambler (ga gb : Nat) : Nat :=
  Octets.toNat (Sha256.hash (bytes256 ga ++ bytes256 gb))

/-- The key as the server computes it, for a verifier and its secret, from the client's half. -/
def serverKey (v b ga : Nat) : Nat :=
  (ga * v ^ scrambler ga (c.serverHalf v b)) ^ b % c.modulus

/-- The proof that the holder of a key knows it. -/
def proof (ga gb key : Nat) : List UInt8 :=
  Sha256.hash
    (Octets.xor (Sha256.hash c.p) (Sha256.hash (bytes256 c.generator)) ++ Sha256.hash c.salt1 ++
      Sha256.hash c.salt2 ++ bytes256 ga ++ bytes256 gb ++ Sha256.hash (bytes256 key))

/-- The four bytes of a positive generator write it. -/
theorem wide_generator (hg : 1 ≤ c.g.toInt) :
    wide (Octets.ofNat 4 c.g.toUInt32.toNat) = bytes256 c.generator := by
  have hword : c.g.toUInt32.toNat < 256 ^ 4 := c.g.toUInt32.toNat_lt
  have hnat : c.g.toUInt32.toNat = c.generator := by
    have hint : c.g.toInt = if 2 * c.g.toUInt32.toNat < 2 ^ 32 then (c.g.toUInt32.toNat : Int)
        else c.g.toUInt32.toNat - (2 ^ 32 : Nat) := BitVec.toInt_eq_toNat_cond c.g.toBitVec
    rw [generator]
    split at hint <;> omega
  rw [wide_eq, Octets.toNat_ofNat hword, hnat]

/-- The client computes powers of the generator, which it reduces first. -/
theorem powMod_generator (hg : 1 ≤ c.g.toInt) (n : Nat) :
    powMod (c.g.toInt % (c.modulus : Int)).toNat n c.modulus = c.generator ^ n % c.modulus := by
  have hreduced : (c.g.toInt % (c.modulus : Int)).toNat = c.generator % c.modulus :=
    Int.toNat_emod (by omega) (Int.natCast_nonneg _)
  rw [powMod_eq, hreduced, ← Nat.pow_mod]

end Challenge

/-! ## The client's side -/

/-- What is left of the server's half of the key without the hidden verifier. -/
theorem half_sub_verifier (kv gb p : Nat) :
    ((((kv + gb) % p : Nat) : Int) - (kv % p : Nat)) % p = (gb % p : Nat) := by
  push_cast
  rw [← Int.sub_emod, add_sub_cancel_left]

/-- The two ways to compute the key. -/
theorem key_eq (g x a b u p : Nat) :
    (g ^ b % p) ^ (a + u * x) % p = (g ^ a % p * (g ^ x % p) ^ u) ^ b % p := by
  have hclient : (g ^ b % p) ^ (a + u * x) ≡ g ^ (b * (a + u * x)) [MOD p] := by
    rw [pow_mul]
    exact (Nat.mod_modEq _ _).pow _
  have hserver : (g ^ a % p * (g ^ x % p) ^ u) ^ b ≡ (g ^ a * (g ^ x) ^ u) ^ b [MOD p] :=
    ((Nat.mod_modEq _ _).mul ((Nat.mod_modEq _ _).pow u)).pow b
  have hpowers : (g ^ a * (g ^ x) ^ u) ^ b = g ^ (b * (a + u * x)) := by
    rw [← pow_mul, ← pow_add, ← pow_mul]
    congr 1
    ring
  rw [hpowers] at hserver
  exact hclient.trans hserver.symm

/-- The client takes the hidden verifier off the server's half, and has the server's key. -/
theorem Challenge.clientKey_eq (c : Challenge) (password : List UInt8) (a b : Nat) :
    let v := c.verifier password
    let ga := c.clientHalf a
    let gb := c.serverHalf v b
    powMod (((gb : Int) - (c.multiplier * v % c.modulus : Nat)) % (c.modulus : Int)).toNat
      (a + Challenge.scrambler ga gb * c.exponent password) c.modulus = c.serverKey v b ga := by
  intro v ga gb
  have hgenerator : (((gb : Int) - (c.multiplier * v % c.modulus : Nat)) % (c.modulus : Int)).toNat =
      c.generator ^ b % c.modulus := by
    have h := half_sub_verifier (c.multiplier * v) (c.generator ^ b) c.modulus
    rw [show gb = (c.multiplier * v + c.generator ^ b) % c.modulus from rfl, h, Int.toNat_natCast]
  rw [hgenerator, powMod_eq, Challenge.serverKey]
  exact key_eq c.generator (c.exponent password) a b (Challenge.scrambler ga gb) c.modulus

/-- The answer to a challenge, with the server's half of the key made from any secret: the client's
half of the key, and the proof for the key that the server computes. -/
theorem answer?_agrees (c : Challenge) (a password : List UInt8) (b : Nat) (hg : 1 ≤ c.g.toInt)
    (hp : 1 ≤ c.modulus) (hp' : c.modulus < 2 ^ 2048) (ha : a.length ≤ 256)
    (hgb : Octets.toNat c.gb = c.serverHalf (c.verifier password) b) :
    let ga := c.clientHalf (Octets.toNat a)
    let gb := c.serverHalf (c.verifier password) b
    answer? c a password = some
      { ga := bytes256 ga
        m1 := c.proof ga gb (c.serverKey (c.verifier password) b ga) } := by
  intro ga gb
  have hgb_lt : gb < 256 ^ 256 := by
    refine (Nat.mod_lt _ hp).trans (hp'.trans_eq ?_)
    rw [show 2048 = 8 * 256 from rfl, pow_mul]
    rfl
  have ha_eq : Octets.toNat (wide a) = Octets.toNat a :=
    Octets.toNat_fit ((Octets.toNat_lt a).trans_le (Nat.pow_le_pow_right (by decide) ha))
  have hgb_wide : wide c.gb = bytes256 gb := by rw [wide_eq, hgb]
  have hgb_eq : Octets.toNat (bytes256 gb) = gb := Octets.toNat_ofNat hgb_lt
  have hp0 : Octets.toNat c.p ≠ 0 := Nat.pos_iff_ne_zero.1 hp
  have hp_eq : Octets.toNat c.p = c.modulus := rfl
  have hkey := c.clientKey_eq password (Octets.toNat a) b
  rw [answer?]
  simp only [if_neg hp0]
  simp only [hp_eq, c.powMod_generator hg, c.wide_generator hg, wide_minimal, ha_eq, hgb_wide, hgb_eq]
  exact congrArg (fun key => some (Answer.mk (c.proof ga gb key) (bytes256 ga))) hkey

/-- The challenge that a server makes with a secret: it sends its half of the key. -/
def Challenge.withSecret (c : Challenge) (password : List UInt8) (b : Nat) : Challenge :=
  { c with gb := Octets.minimal (c.serverHalf (c.verifier password) b) }

theorem Challenge.toNat_gb_withSecret (c : Challenge) (password : List UInt8) (b : Nat) :
    Octets.toNat (c.withSecret password b).gb =
      (c.withSecret password b).serverHalf ((c.withSecret password b).verifier password) b :=
  Octets.toNat_minimal _

/-- Two salts and a small modulus. -/
def smallChallenge : Challenge :=
  { salt1 := [1], salt2 := [2], g := 5, p := [23], gb := [] }

/-- For a password of two bytes, the secret 15 of the server and the secret 6 of the client. -/
theorem answer?_agrees_smallChallenge :
    let c := smallChallenge.withSecret [112, 119] 15
    1 ≤ c.g.toInt ∧ 1 ≤ c.modulus ∧ c.modulus < 2 ^ 2048 ∧ [(6 : UInt8)].length ≤ 256 ∧
      Octets.toNat c.gb = c.serverHalf (c.verifier [112, 119]) 15 ∧ c.clientHalf 6 = 8 ∧
      answer? c [6] [112, 119] = some
        { ga := bytes256 8
          m1 := c.proof 8 (c.serverHalf (c.verifier [112, 119]) 15)
            (c.serverKey (c.verifier [112, 119]) 15 8) } := by
  intro c
  have hg : 1 ≤ c.g.toInt := by decide
  have hp : 1 ≤ c.modulus := by decide
  have hp' : c.modulus < 2 ^ 2048 := by
    have hpow (n : Nat) (hn : c.modulus ≤ n) : c.modulus < 2 ^ n := hn.trans_lt Nat.lt_two_pow_self
    exact hpow 2048 (by decide)
  have ha : [(6 : UInt8)].length ≤ 256 := by decide
  have hgb := smallChallenge.toNat_gb_withSecret [112, 119] 15
  have hga : c.clientHalf 6 = 8 := by decide
  have h := answer?_agrees c [6] [112, 119] 15 hg hp hp' ha hgb
  rw [show Octets.toNat [6] = 6 from rfl, hga] at h
  exact ⟨hg, hp, hp', ha, hgb, hga, h⟩

end Telebridge.Srp
