import Mathlib.Algebra.Group.Nat.Defs
import Mathlib.Data.List.Induction
import Telebridge.Encoding.Octets
set_option autoImplicit false

/-! # Numbers as bytes

The bytes of a number and the number of some bytes belong together: `toNat_ofNat` in one direction, and
in the other `fit_eq_ofNat`, which says that bringing bytes to a width is writing their number in that
width. So it does not matter how many zeros a number was written with. -/

namespace Telebridge.Octets

theorem toNat_snoc (bytes : List UInt8) (b : UInt8) :
    toNat (bytes ++ [b]) = toNat bytes * 256 + b.toNat := by
  simp [toNat]

theorem toNat_lt (bytes : List UInt8) : toNat bytes < 256 ^ bytes.length := by
  induction bytes using List.reverseRecOn with
  | nil => decide
  | append_singleton bytes b ih =>
    have hb : b.toNat < 256 := b.toNat_lt
    rw [toNat_snoc, List.length_append, List.length_singleton, pow_succ]
    omega

/-- The bytes of a number write it, if there are enough of them. -/
theorem toNat_ofNat {count n : Nat} (h : n < 256 ^ count) : toNat (ofNat count n) = n := by
  induction count generalizing n with
  | zero =>
    rw [pow_zero] at h
    have hn : n = 0 := by omega
    rw [hn]
    rfl
  | succ count ih =>
    rw [pow_succ] at h
    have hhigh : n / 256 < 256 ^ count := by omega
    have hlow : (UInt8.ofNat (n % 256)).toNat = n % 256 := by simp
    rw [ofNat, toNat_snoc, ih hhigh, hlow]
    omega

theorem toNat_minimal (n : Nat) : toNat (minimal n) = n := by
  refine toNat_ofNat ?_
  have hlog : n < 2 ^ (n.log2 + 1) := Nat.lt_log2_self
  have hwidth : n.log2 + 1 ≤ 8 * (n.log2 / 8 + 1) := by omega
  calc n < 2 ^ (n.log2 + 1) := hlog
    _ ≤ 2 ^ (8 * (n.log2 / 8 + 1)) := Nat.pow_le_pow_right (by decide) hwidth
    _ = (2 ^ 8) ^ (n.log2 / 8 + 1) := pow_mul 2 8 _

theorem ofNat_zero (count : Nat) : ofNat count 0 = List.replicate count 0 := by
  induction count with
  | zero => rfl
  | succ count ih => rw [ofNat, Nat.zero_div, ih, List.replicate_succ']; rfl

theorem fit_snoc (width : Nat) (bytes : List UInt8) (b : UInt8) :
    fit (width + 1) (bytes ++ [b]) = fit width bytes ++ [b] := by
  have hdrop : bytes.length + 1 - (width + 1) = bytes.length - width := by omega
  have hzeros : width + 1 - (bytes.length + 1) = width - bytes.length := by omega
  simp only [fit, List.length_append, List.length_singleton, hdrop, hzeros]
  rw [List.drop_append_of_le_length (by omega), List.append_assoc]

/-- Bytes brought to a width are the bytes of their number in that width. -/
theorem fit_eq_ofNat (width : Nat) (bytes : List UInt8) :
    fit width bytes = ofNat width (toNat bytes) := by
  induction bytes using List.reverseRecOn generalizing width with
  | nil => simp [fit, toNat, ofNat_zero]
  | append_singleton bytes b ih =>
    cases width with
    | zero => simp [fit, ofNat]
    | succ width =>
      have hb : b.toNat < 256 := b.toNat_lt
      have hhigh : (toNat bytes * 256 + b.toNat) / 256 = toNat bytes := by omega
      have hlow : (toNat bytes * 256 + b.toNat) % 256 = b.toNat := by omega
      rw [fit_snoc, ih, toNat_snoc, ofNat, hhigh, hlow, UInt8.ofNat_toNat]

/-- Enough bytes keep the number. -/
theorem toNat_fit {width : Nat} {bytes : List UInt8} (h : toNat bytes < 256 ^ width) :
    toNat (fit width bytes) = toNat bytes := by
  rw [fit_eq_ofNat, toNat_ofNat h]

end Telebridge.Octets
