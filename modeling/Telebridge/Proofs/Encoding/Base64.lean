import Telebridge.Encoding.Base64
set_option autoImplicit false

/-! # Reading back Base64

Both alphabets tell their letters apart, and neither has the padding sign. So reading gives back what
was written (`decode?_encode`), in the padded form (`decodePadded?_encodePadded`), and in the unpadded
form with any padding put behind it (`decodeStripped?_append`). The alphabet for URLs writes letters,
digits, hyphens and underscores (`isUrlSafe_of_mem_encode`). -/

namespace Telebridge.Base64

/-! ## Letters -/

/-- The letters are told apart, and none of them is the padding sign. -/
structure Alphabet.Proper (a : Alphabet) : Prop where
  value?_letter : ∀ n < 64, value? a (letter a n) = some n
  letter_ne_pad : ∀ n < 64, letter a n ≠ '='

theorem proper_standard : standard.Proper :=
  ⟨by decide, by decide⟩

theorem proper_urlSafe : urlSafe.Proper :=
  ⟨by decide, by decide⟩

variable {a : Alphabet}

/-! ## Without padding -/

theorem decode?_encode (ha : a.Proper) (bytes : List UInt8) :
    decode? a (encode a bytes) = some bytes := by
  have hvalue {n : Nat} (h : n < 64) := ha.value?_letter n h
  induction bytes using encode.induct with
  | case1 => rfl
  | case2 x =>
    have hx := x.toNat_lt
    simp only [encode]
    generalize hn : x.toNat * 16 = n
    have hsum : n / 64 * 64 + n % 64 = n := by omega
    simp only [decode?, hvalue (show n / 64 < 64 by omega), hvalue (show n % 64 < 64 by omega),
      Option.bind_eq_bind, Option.bind_some, hsum]
    rw [if_pos (by omega), show n / 16 = x.toNat by omega, UInt8.ofNat_toNat]
  | case3 x y =>
    have hx := x.toNat_lt
    have hy := y.toNat_lt
    simp only [encode]
    generalize hn : (x.toNat * 256 + y.toNat) * 4 = n
    have hsum : (n / 4096 * 64 + n / 64 % 64) * 64 + n % 64 = n := by omega
    simp only [decode?, hvalue (show n / 4096 < 64 by omega),
      hvalue (show n / 64 % 64 < 64 by omega), hvalue (show n % 64 < 64 by omega),
      Option.bind_eq_bind, Option.bind_some, hsum]
    rw [if_pos (by omega), show n / 1024 = x.toNat by omega, show n / 4 % 256 = y.toNat by omega,
      UInt8.ofNat_toNat, UInt8.ofNat_toNat]
  | case4 x y z rest ih =>
    have hx := x.toNat_lt
    have hy := y.toNat_lt
    have hz := z.toNat_lt
    simp only [encode]
    generalize hn : (x.toNat * 256 + y.toNat) * 256 + z.toNat = n
    have hsum : ((n / 262144 * 64 + n / 4096 % 64) * 64 + n / 64 % 64) * 64 + n % 64 = n := by
      omega
    simp only [decode?, hvalue (show n / 262144 < 64 by omega),
      hvalue (show n / 4096 % 64 < 64 by omega), hvalue (show n / 64 % 64 < 64 by omega),
      hvalue (show n % 64 < 64 by omega), ih, Option.bind_eq_bind, Option.bind_some, hsum]
    rw [show n / 65536 = x.toNat by omega, show n / 256 % 256 = y.toNat by omega,
      show n % 256 = z.toNat by omega, UInt8.ofNat_toNat, UInt8.ofNat_toNat, UInt8.ofNat_toNat]

/-- Only letters of the alphabet are written. -/
theorem encode_letters (bytes : List UInt8) : ∀ c ∈ encode a bytes, ∃ n < 64, c = letter a n := by
  induction bytes using encode.induct with
  | case1 => simp [encode]
  | case2 x =>
    have hx := x.toNat_lt
    intro c hc
    simp only [encode, List.mem_cons, List.not_mem_nil, or_false] at hc
    obtain rfl | rfl := hc
    · exact ⟨_, by omega, rfl⟩
    · exact ⟨_, by omega, rfl⟩
  | case3 x y =>
    have hx := x.toNat_lt
    have hy := y.toNat_lt
    intro c hc
    simp only [encode, List.mem_cons, List.not_mem_nil, or_false] at hc
    obtain rfl | rfl | rfl := hc
    · exact ⟨_, by omega, rfl⟩
    · exact ⟨_, by omega, rfl⟩
    · exact ⟨_, by omega, rfl⟩
  | case4 x y z rest ih =>
    have hx := x.toNat_lt
    have hy := y.toNat_lt
    have hz := z.toNat_lt
    intro c hc
    simp only [encode, List.mem_cons] at hc
    obtain rfl | rfl | rfl | rfl | hc := hc
    · exact ⟨_, by omega, rfl⟩
    · exact ⟨_, by omega, rfl⟩
    · exact ⟨_, by omega, rfl⟩
    · exact ⟨_, by omega, rfl⟩
    · exact ih c hc

theorem encode_ne_pad (ha : a.Proper) (bytes : List UInt8) : ∀ c ∈ encode a bytes, c ≠ '=' := by
  intro c hc
  obtain ⟨n, hn, rfl⟩ := encode_letters bytes c hc
  exact ha.letter_ne_pad n hn

/-- A letter, a digit, a hyphen or an underscore. -/
def isUrlSafe (c : Char) : Bool :=
  c.isAlphanum || c = '-' || c = '_'

/-- The alphabet for URLs has these signs only. -/
theorem isUrlSafe_of_mem_encode {bytes : List UInt8} {c : Char} (hc : c ∈ encode urlSafe bytes) :
    isUrlSafe c := by
  have hletter : ∀ n < 64, isUrlSafe (letter urlSafe n) := by decide
  obtain ⟨n, hn, rfl⟩ := encode_letters bytes c hc
  exact hletter n hn

/-! ## With padding -/

/-- Padding behind letters is dropped, and nothing else. -/
theorem dropBack_append {cs : List Char} (h : ∀ c ∈ cs, c ≠ '=') (count : Nat) :
    Text.dropBack (· = '=') (cs ++ List.replicate count '=') = cs := by
  have hstop : cs.reverse.dropWhile (· = '=') = cs.reverse := by
    cases hrev : cs.reverse with
    | nil => rfl
    | cons c rest =>
      have hc : c ∈ cs := by
        rw [← List.mem_reverse, hrev]
        exact List.mem_cons_self
      simp [h c hc]
  have hpad : (List.replicate count '=' ++ cs.reverse).dropWhile (· = '=') = cs.reverse := by
    rw [List.dropWhile_append_of_pos (by simp), hstop]
  rw [Text.dropBack, List.reverse_append, List.reverse_replicate, hpad, List.reverse_reverse]

theorem decodePadded?_encodePadded (ha : a.Proper) (bytes : List UInt8) :
    decodePadded? a (encodePadded a bytes) = some bytes := by
  simp only [decodePadded?, encodePadded, dropBack_append (encode_ne_pad ha bytes),
    List.length_append, List.length_replicate, if_true, decode?_encode ha]

theorem decodeStripped?_append (ha : a.Proper) (bytes : List UInt8) (count : Nat) :
    decodeStripped? a (encode a bytes ++ List.replicate count '=') = some bytes := by
  rw [decodeStripped?, dropBack_append (encode_ne_pad ha bytes), decode?_encode ha]

end Telebridge.Base64
