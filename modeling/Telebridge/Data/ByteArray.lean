set_option autoImplicit false

/-! # Byte strings

Byte strings are compared byte by byte. -/

namespace Telebridge

instance decidableEqByteArray : DecidableEq ByteArray := fun a b =>
  decidable_of_iff (a.data = b.data) ⟨ByteArray.ext, congrArg ByteArray.data⟩

end Telebridge
