import Telebridge.Encoding.Utf8
set_option autoImplicit false

/-! # Reading back UTF-8

The bytes of a character are read as that character, whatever follows them (`step_encoded`), so a text
is read back from its bytes without ill-formed parts (`scan_encode`). -/

namespace Telebridge.Utf8

/-- A continuation byte is accepted, and adds its six bits. -/
theorem follow_continuation {ok : UInt8 → Bool} {b : UInt8} (h : ok b = true) (acc count : Nat)
    (rest : List UInt8) :
    follow ok acc (count + 1) (b :: rest) = follow isContinuation (acc * 64 + low b) count rest := by
  rw [follow, if_pos h]

theorem isContinuation_ofNat {n : Nat} (h : n < 64) : isContinuation (UInt8.ofNat (n + 128)) = true := by
  simp only [isContinuation, UInt8.toNat_ofNat', Bool.and_eq_true, decide_eq_true_eq]
  omega

theorem low_ofNat {n : Nat} (h : n < 64) : low (UInt8.ofNat (n + 128)) = n := by
  simp only [low, UInt8.toNat_ofNat']
  omega

/-- The second byte fits the lead byte: after `E0` and `F0` it is not so small that a shorter form would
do, after `ED` it is not that of a surrogate, and after `F4` it is not beyond the last character. -/
theorem isSecond_ofNat {lead n : Nat} (hlead : lead < 256) (h : n < 64) (hE0 : lead = 0xE0 → 32 ≤ n)
    (hED : lead = 0xED → n < 32) (hF0 : lead = 0xF0 → 16 ≤ n) (hF4 : lead = 0xF4 → n < 16) :
    isSecond (UInt8.ofNat lead) (UInt8.ofNat (n + 128)) = true := by
  have hlead' : (UInt8.ofNat lead).toNat = lead := by
    rw [UInt8.toNat_ofNat']
    omega
  have hn : (UInt8.ofNat (n + 128)).toNat = n + 128 := by
    rw [UInt8.toNat_ofNat']
    omega
  simp only [isSecond, hlead', hn]
  split
  · have := hE0 rfl
    simp only [Bool.and_eq_true, decide_eq_true_eq]
    omega
  · have := hED rfl
    simp only [Bool.and_eq_true, decide_eq_true_eq]
    omega
  · have := hF0 rfl
    simp only [Bool.and_eq_true, decide_eq_true_eq]
    omega
  · have := hF4 rfl
    simp only [Bool.and_eq_true, decide_eq_true_eq]
    omega
  · exact isContinuation_ofNat h

/-- What `step` looks at: the size of the lead byte. -/
theorem step_ofNat {n : Nat} (h : n < 256) (rest : List UInt8) :
    step (UInt8.ofNat n) rest =
      if n < 0x80 then follow isContinuation n 0 rest
      else if 0xC2 ≤ n ∧ n ≤ 0xDF then follow (isSecond (UInt8.ofNat n)) (n - 0xC0) 1 rest
      else if 0xE0 ≤ n ∧ n ≤ 0xEF then follow (isSecond (UInt8.ofNat n)) (n - 0xE0) 2 rest
      else if 0xF0 ≤ n ∧ n ≤ 0xF4 then follow (isSecond (UInt8.ofNat n)) (n - 0xF0) 3 rest
      else (none, rest) := by
  have hn : (UInt8.ofNat n).toNat = n := by
    rw [UInt8.toNat_ofNat']
    omega
  simp only [step, hn]

/-- A character is read from its bytes. -/
theorem step_encoded (c : Char) (rest : List UInt8) :
    ∃ b bytes, String.utf8EncodeChar c = b :: bytes ∧ step b (bytes ++ rest) = (some c, rest) := by
  have hvalid : c.toNat < 0xD800 ∨ 0xDFFF < c.toNat ∧ c.toNat < 0x110000 := c.valid
  have hchar : Char.ofNat c.toNat = c := Char.ofNat_toNat c
  simp only [String.utf8EncodeChar]
  rw [show c.val.toNat = c.toNat from rfl]
  generalize c.toNat = v at hvalid hchar
  split
  · -- one byte
    refine ⟨_, _, rfl, ?_⟩
    rw [step_ofNat (by omega), if_pos (by omega), List.nil_append, follow, hchar]
  split
  · -- two bytes
    refine ⟨_, _, rfl, ?_⟩
    rw [List.cons_append, List.nil_append, step_ofNat (by omega), if_neg (by omega),
      if_pos (by omega),
      follow_continuation (isSecond_ofNat (by omega) (by omega) (by omega) (by omega) (by omega)
        (by omega)),
      low_ofNat (by omega), follow,
      show (v / 64 % 32 + 192 - 0xC0) * 64 + v % 64 = v by omega, hchar]
  split
  · -- three bytes
    refine ⟨_, _, rfl, ?_⟩
    rw [List.cons_append, List.cons_append, List.nil_append, step_ofNat (by omega),
      if_neg (by omega), if_neg (by omega), if_pos (by omega),
      follow_continuation (isSecond_ofNat (by omega) (by omega) (by omega) (by omega) (by omega)
        (by omega)),
      low_ofNat (by omega), follow_continuation (isContinuation_ofNat (by omega)),
      low_ofNat (by omega), follow,
      show ((v / 4096 % 16 + 224 - 0xE0) * 64 + v / 64 % 64) * 64 + v % 64 = v by omega, hchar]
  · -- four bytes
    refine ⟨_, _, rfl, ?_⟩
    rw [List.cons_append, List.cons_append, List.cons_append, List.nil_append,
      step_ofNat (by omega), if_neg (by omega), if_neg (by omega), if_neg (by omega),
      if_pos (by omega),
      follow_continuation (isSecond_ofNat (by omega) (by omega) (by omega) (by omega) (by omega)
        (by omega)),
      low_ofNat (by omega), follow_continuation (isContinuation_ofNat (by omega)),
      low_ofNat (by omega), follow_continuation (isContinuation_ofNat (by omega)),
      low_ofNat (by omega), follow,
      show (((v / 262144 % 8 + 240 - 0xF0) * 64 + v / 4096 % 64) * 64 + v / 64 % 64) * 64 + v % 64 =
        v by omega, hchar]

theorem scan_flatMap (cs : List Char) : scan (cs.flatMap String.utf8EncodeChar) = cs.map some := by
  induction cs with
  | nil => simp [scan]
  | cons c cs ih =>
    obtain ⟨b, bytes, hc, hstep⟩ := step_encoded c (cs.flatMap String.utf8EncodeChar)
    rw [List.flatMap_cons, hc, List.cons_append, scan, hstep, ih, List.map_cons]

theorem toList_encode (s : String) :
    (encode s).data.toList = s.toList.flatMap String.utf8EncodeChar := by
  rw [encode, String.toUTF8_eq_toByteArray, ← String.utf8Encode_toList, List.utf8Encode,
    List.toList_data_toByteArray]

/-- A text is read back from its bytes. -/
theorem scan_encode (s : String) : scan (encode s).data.toList = s.toList.map some := by
  rw [toList_encode, scan_flatMap]

end Telebridge.Utf8
