import Telebridge.Crypto.Srp
import Telebridge.Encoding.Utf8
import Telebridge.Login.Error
import Telebridge.Schema.Login
set_option autoImplicit false

/-! # Answering a password challenge

Checks that a challenge is complete and of a known kind before the proof is computed. -/

namespace Telebridge.Password

/-- A challenge that can be answered. -/
structure Challenge where
  srpId : Int64
  srp : Srp.Challenge

/-- The challenge that the server's description holds. -/
def challenge (c : PasswordChallenge) : Except LoginError Challenge := do
  let (salt1, salt2, g, p) ← match c.currentAlgorithm with
    | some (.modPow salt1 salt2 g p) => pure (salt1, salt2, g, p)
    | some .unknown => throw .unsupportedAlgorithm
    | none =>
      throw (.call (.unexpectedResult "account.getPassword" "Password without current_algo"))
  match c.srpB, c.srpId with
  | some b, some srpId =>
    return ⟨srpId, ⟨salt1.data.toList, salt2.data.toList, g, p.data.toList, b.data.toList⟩⟩
  | _, _ => throw (.call (.unexpectedResult "account.getPassword" "Password without srp_b"))

/-- The proof of a password, with the client secret `a`. -/
def prove (c : Challenge) (a : ByteArray) (secret : String) : Except LoginError PasswordProof :=
  match Srp.answer? c.srp a.data.toList (Utf8.encode secret).data.toList with
  | some answer => .ok (.srp c.srpId ⟨answer.ga.toArray⟩ ⟨answer.m1.toArray⟩)
  | none => .error .zeroModulus

end Telebridge.Password
