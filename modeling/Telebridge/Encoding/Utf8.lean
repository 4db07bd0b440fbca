set_option autoImplicit false

/-! # UTF-8

Bytes read as characters. Reading never fails: every maximal ill-formed part of the input yields one
`none`. Replacing each `none` by U+FFFD gives the usual lossy reading. -/

namespace Telebridge.Utf8

/-- A continuation byte. -/
def isContinuation (b : UInt8) : Bool :=
  0x80 ≤ b.toNat && b.toNat ≤ 0xBF

/-- The low six bits of a continuation byte. -/
def low (b : UInt8) : Nat :=
  b.toNat % 64

/-- Whether `b` may be the second byte of a character with the lead byte `lead`. -/
def isSecond (lead b : UInt8) : Bool :=
  let n := b.toNat
  match lead.toNat with
  | 0xE0 => 0xA0 ≤ n && n ≤ 0xBF
  | 0xED => 0x80 ≤ n && n ≤ 0x9F
  | 0xF0 => 0x90 ≤ n && n ≤ 0xBF
  | 0xF4 => 0x80 ≤ n && n ≤ 0x8F
  | _ => isContinuation b

/-- Reads `count` more bytes of a character whose bits so far are `acc`; the next byte has to satisfy
`ok`. Stops before the first byte that does not fit. -/
def follow (ok : UInt8 → Bool) (acc : Nat) : Nat → List UInt8 → Option Char × List UInt8
  | 0, rest => (some (Char.ofNat acc), rest)
  | _ + 1, [] => (none, [])
  | count + 1, c :: rest =>
    if ok c then follow isContinuation (acc * 64 + low c) count rest else (none, c :: rest)

/-- The first character of some bytes, or `none` for an ill-formed part, and the bytes after it. -/
def step (b : UInt8) (rest : List UInt8) : Option Char × List UInt8 :=
  let n := b.toNat
  if n < 0x80 then follow isContinuation n 0 rest
  else if 0xC2 ≤ n ∧ n ≤ 0xDF then follow (isSecond b) (n - 0xC0) 1 rest
  else if 0xE0 ≤ n ∧ n ≤ 0xEF then follow (isSecond b) (n - 0xE0) 2 rest
  else if 0xF0 ≤ n ∧ n ≤ 0xF4 then follow (isSecond b) (n - 0xF0) 3 rest
  else (none, rest)

theorem length_follow (ok : UInt8 → Bool) (acc count : Nat) (rest : List UInt8) :
    (follow ok acc count rest).2.length ≤ rest.length := by
  induction rest generalizing ok acc count with
  | nil => cases count <;> simp [follow]
  | cons c rest ih =>
    cases count with
    | zero => simp [follow]
    | succ count =>
      unfold follow
      split
      · exact Nat.le_succ_of_le (ih _ _ _)
      · exact Nat.le_refl _

theorem length_step (b : UInt8) (rest : List UInt8) : (step b rest).2.length ≤ rest.length := by
  simp only [step]
  split
  · exact length_follow _ _ _ _
  split
  · exact length_follow _ _ _ _
  split
  · exact length_follow _ _ _ _
  split
  · exact length_follow _ _ _ _
  · exact Nat.le_refl _

/-- The characters of some bytes, with one `none` for each maximal ill-formed part. -/
def scan : List UInt8 → List (Option Char)
  | [] => []
  | b :: rest => (step b rest).1 :: scan (step b rest).2
termination_by bytes => bytes.length
decreasing_by
  have := length_step b rest
  simp only [List.length_cons]
  omega

/-- The characters of some bytes, with U+FFFD for each ill-formed part. -/
def decodeLossy (bytes : List UInt8) : List Char :=
  (scan bytes).map fun c => c.getD '\uFFFD'

/-- The bytes of a text. -/
def encode (s : String) : ByteArray :=
  s.toUTF8

end Telebridge.Utf8
