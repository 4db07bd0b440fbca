set_option autoImplicit false

/-! # Byte strings one after another -/

namespace Telebridge.Bytes

/-- Byte strings put together. -/
def concat : List ByteArray → ByteArray
  | [] => ByteArray.empty
  | bytes :: rest => bytes ++ concat rest

@[simp] theorem concat_nil : concat [] = ByteArray.empty := rfl

@[simp] theorem concat_cons (bytes : ByteArray) (rest : List ByteArray) :
    concat (bytes :: rest) = bytes ++ concat rest := rfl

@[simp] theorem concat_append (l l' : List ByteArray) :
    concat (l ++ l') = concat l ++ concat l' := by
  induction l with
  | nil => simp
  | cons bytes rest ih => simp [ih, ByteArray.append_assoc]

theorem isEmpty_iff (bytes : ByteArray) : bytes.isEmpty ↔ bytes = ByteArray.empty := by
  simp only [ByteArray.isEmpty, beq_iff_eq, ByteArray.size_eq_zero_iff]

/-- Empty byte strings do not count. -/
theorem concat_filter (l : List ByteArray) :
    concat (l.filter fun bytes => !bytes.isEmpty) = concat l := by
  induction l with
  | nil => rfl
  | cons bytes rest ih =>
    by_cases h : bytes.isEmpty
    · rw [List.filter_cons_of_neg (by simpa using h), ih]
      simp [(isEmpty_iff bytes).1 h]
    · rw [List.filter_cons_of_pos (by simpa using h)]
      simp [ih]

end Telebridge.Bytes
