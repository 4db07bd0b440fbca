import Telebridge.Media.PartBuffer
import Telebridge.Proofs.Data.Bytes
set_option autoImplicit false

/-! # The parts of a body

However a body arrives, the parts that a buffer lets go are the same: the body cut into pieces of the
part size, numbered from zero. The proof keeps one invariant, `PartBuffer.Follows`, through `write` and
`finish`. Its core is that cutting more of a body goes on where the last cut ended (`cut_append`). -/

namespace Telebridge.PartBuffer

/-! ## Cutting -/

/-- How many parts a body of a given length has; an empty one has one. -/
def partCount (partSize length : Nat) : Nat :=
  max 1 ((length + partSize - 1) / partSize)

/-- The parts of a body. -/
def parts (partSize : Nat) (body : ByteArray) : List ByteArray :=
  (List.range (partCount partSize body.size)).map fun i =>
    body.extract (i * partSize) (min ((i + 1) * partSize) body.size)

theorem length_parts (n : Nat) (body : ByteArray) :
    (parts n body).length = partCount n body.size := by
  rw [parts, List.length_map, List.length_range]

/-- What is no longer than a part is not cut. -/
theorem cut_of_le {n : Nat} {body : ByteArray} (h : body.size ≤ n) : cut n body = ([], body) := by
  unfold cut
  rw [dif_neg (by omega)]

/-- Cutting a longer body goes on where the last cut ended. -/
theorem cut_append (n : Nat) (body more : ByteArray) :
    cut n (body ++ more) =
      ((cut n body).1 ++ (cut n ((cut n body).2 ++ more)).1, (cut n ((cut n body).2 ++ more)).2) := by
  fun_induction cut n body with
  | case1 body h rest ih =>
    have hproper : 0 < n ∧ n < (body ++ more).size := by
      rw [ByteArray.size_append]
      omega
    have hfirst : (body ++ more).extract 0 n = body.extract 0 n := by
      rw [ByteArray.extract_append, Nat.zero_sub, Nat.sub_eq_zero_of_le (Nat.le_of_lt h.2),
        ByteArray.extract_same, ByteArray.append_empty]
    have hrest : (body ++ more).extract n (body ++ more).size = body.extract n body.size ++ more := by
      rw [ByteArray.extract_append, ByteArray.size_append, Nat.sub_eq_zero_of_le (Nat.le_of_lt h.2),
        Nat.add_sub_cancel_left, ByteArray.extract_zero_size]
      congr 1
      ext1
      simp only [ByteArray.data_extract, Array.extract_eq_extract_right, ByteArray.size_data]
      omega
    rw [cut, dif_pos hproper, hfirst, hrest, ih]
    rfl
  | case2 body h => simp

theorem partCount_of_le {n length : Nat} (h : length ≤ n) : partCount n length = 1 := by
  have hdiv : (length + n - 1) / n ≤ 1 := by
    rcases Nat.eq_zero_or_pos n with rfl | hn
    · simp
    · exact Nat.le_of_lt_succ (Nat.div_lt_of_lt_mul (by omega))
  exact Nat.max_eq_left hdiv

theorem partCount_of_lt {n length : Nat} (hn : 0 < n) (h : n < length) :
    partCount n length = partCount n (length - n) + 1 := by
  have hdiv : (length + n - 1) / n = (length - n + n - 1) / n + 1 := by
    rw [← Nat.add_div_right _ hn]
    congr 1
    omega
  have hpos : 1 ≤ (length - n + n - 1) / n := (Nat.one_le_div_iff hn).2 (by omega)
  rw [partCount, partCount, hdiv, Nat.max_eq_right hpos, Nat.max_eq_right (Nat.le_succ_of_le hpos)]

/-- Cutting gives the parts of a body; the last is what is left. -/
theorem cut_eq_parts {n : Nat} (hn : 0 < n) (body : ByteArray) :
    (cut n body).1 ++ [(cut n body).2] = parts n body := by
  fun_induction cut n body with
  | case1 body h rest ih =>
    have hsize : (body.extract n body.size).size = body.size - n := by simp
    rw [List.cons_append, ih, parts, parts, hsize, partCount_of_lt hn h.2, List.range_succ_eq_map,
      List.map_cons, List.map_map]
    congr 1
    · rw [Nat.zero_mul, Nat.zero_add, Nat.one_mul, Nat.min_eq_left (Nat.le_of_lt h.2)]
    · -- the pieces of the rest are the later pieces of the whole
      refine List.map_congr_left fun i _ => ?_
      rw [Function.comp_apply, ByteArray.extract_extract]
      congr 1
      · rw [Nat.succ_mul, Nat.add_comm]
      · rw [Nat.succ_eq_add_one, Nat.succ_mul (i + 1) n]
        omega
  | case2 body h =>
    have hle : body.size ≤ n := by omega
    rw [parts, partCount_of_le hle, List.range_one, List.map_singleton]
    simp [Nat.min_eq_right hle]

/-! ## Letting parts go -/

/-- From `b` to `b'` the buffer took some pieces and let some parts go: these are the pieces that were
held, then the taken ones, but for those that are now held; they are numbered on. -/
structure Releases (b : PartBuffer) (taken : List ByteArray) (sent : List FilePart)
    (b' : PartBuffer) : Prop where
  bytes : sent.map FilePart.bytes ++ b'.held = b.held ++ taken
  index : sent.map FilePart.index = (List.range' b.next sent.length).map Int32.ofNat
  next : b'.next = b.next + sent.length
  partSize : b'.partSize = b.partSize
  pending : b'.pending = b.pending
  size : b'.size = b.size
  decided : b'.mode ≠ .undecided → b'.held = []

/-- What is numbered and let go. -/
theorem release_eq (b : PartBuffer) (last : Bool) (pieces : List ByteArray) :
    (b.release last pieces).1.map FilePart.bytes = pieces ∧
    (b.release last pieces).1.map FilePart.index =
      (List.range' b.next pieces.length).map Int32.ofNat ∧
    (b.release last pieces).2 = { b with next := b.next + pieces.length } := by
  induction pieces generalizing b with
  | nil => exact ⟨rfl, rfl, rfl⟩
  | cons piece rest ih =>
    obtain ⟨hbytes, hindex, hb⟩ := ih { b with next := b.next + 1 }
    refine ⟨?_, ?_, ?_⟩
    · simp only [release, List.map_cons, hbytes]
    · simp only [release, List.map_cons, hindex, List.length_cons, List.range'_succ]
    · simp only [release, hb, List.length_cons, Nat.add_assoc, Nat.add_comm 1]

/-- What is held and what is taken goes, and nothing is held any more. -/
theorem release_releases {b : PartBuffer} {mode : PartMode} {pieces taken : List ByteArray}
    (last : Bool) (h : pieces = b.held ++ taken) :
    Releases b taken ({ b with mode, held := [] }.release last pieces).1
      ({ b with mode, held := [] }.release last pieces).2 := by
  obtain ⟨hbytes, hindex, hb⟩ := release_eq { b with mode, held := [] } last pieces
  have hlength := congrArg List.length hbytes
  rw [List.length_map] at hlength
  rw [hb]
  refine ⟨?_, ?_, ?_, rfl, rfl, rfl, fun _ => rfl⟩
  · rw [hbytes, h, List.append_nil]
  · rw [hindex, hlength]
  · rw [hlength]

/-- While nothing is held, a piece goes at once. -/
theorem release_one {b : PartBuffer} (h : b.held = []) (piece : ByteArray) (last : Bool) :
    Releases b [piece] (b.release last [piece]).1 (b.release last [piece]).2 := by
  have hb : { b with mode := b.mode, held := [] } = b := by rw [← h]
  have hr : Releases b [piece] ({ b with mode := b.mode, held := [] }.release last [piece]).1
      ({ b with mode := b.mode, held := [] }.release last [piece]).2 :=
    release_releases last (by rw [h, List.nil_append])
  rwa [hb] at hr

/-- A buffer that takes a piece lets it go, or holds it back. -/
theorem put_releases {b : PartBuffer} (h : b.mode ≠ .undecided → b.held = []) (piece : ByteArray)
    (last : Bool) : Releases b [piece] (b.put piece last).1 (b.put piece last).2 := by
  rcases hmode : b.mode with _ | total | _
  · simp only [put, hmode]
    exact release_one (h (by simp [hmode])) piece last
  · simp only [put, hmode]
    exact release_one (h (by simp [hmode])) piece last
  · simp only [put, hmode]
    split
    · exact release_releases last rfl
    · split
      · exact release_releases last rfl
      · refine ⟨rfl, rfl, rfl, rfl, rfl, rfl, fun hd => absurd rfl hd⟩

/-- The last piece decides about the kind of file. -/
theorem put_last_decided (b : PartBuffer) (piece : ByteArray) :
    (b.put piece true).2.mode ≠ .undecided := by
  rcases hmode : b.mode with _ | total | _
  · simp [put, hmode, release_eq]
  · simp [put, hmode, release_eq]
  · simp only [put, hmode]
    split <;> simp [release_eq]

/-- First some pieces, then some more. -/
theorem Releases.trans {b b' b'' : PartBuffer} {taken taken' : List ByteArray}
    {sent sent' : List FilePart} (h : Releases b taken sent b') (h' : Releases b' taken' sent' b'') :
    Releases b (taken ++ taken') (sent ++ sent') b'' where
  bytes := by
    rw [List.map_append, List.append_assoc, h'.bytes, ← List.append_assoc, h.bytes,
      List.append_assoc]
  index := by
    rw [List.map_append, h.index, h'.index, h.next, List.length_append, ← List.map_append,
      List.range'_append_1]
  next := by rw [h'.next, h.next, List.length_append, Nat.add_assoc]
  partSize := h'.partSize.trans h.partSize
  pending := h'.pending.trans h.pending
  size := h'.size.trans h.size
  decided := h'.decided

theorem putAll_releases {b : PartBuffer} (h : b.mode ≠ .undecided → b.held = [])
    (pieces : List ByteArray) : Releases b pieces (b.putAll pieces).1 (b.putAll pieces).2 := by
  induction pieces generalizing b with
  | nil => exact ⟨(List.append_nil _).symm, rfl, rfl, rfl, rfl, rfl, h⟩
  | cons piece rest ih =>
    have hfirst := put_releases h piece false
    exact hfirst.trans (ih hfirst.decided)

/-! ## The body so far -/

/-- What a buffer has become when a beginning of the body has arrived and some parts have gone: the
parts that have gone and those that are held are the first cuts of the body, and the rest is pending. -/
structure Follows (b : PartBuffer) (n : Nat) (body : ByteArray) (sent : List FilePart) : Prop where
  partSize : b.partSize = n
  bytes : sent.map FilePart.bytes ++ b.held = (cut n body).1
  pending : b.pending = (cut n body).2
  index : sent.map FilePart.index = (List.range sent.length).map Int32.ofNat
  next : b.next = sent.length
  size : b.size = body.size
  decided : b.mode ≠ .undecided → b.held = []

theorem cut_empty (n : Nat) : cut n ByteArray.empty = ([], ByteArray.empty) :=
  cut_of_le (Nat.zero_le n)

theorem start_follows (n : Nat) (length : Option Nat) :
    Follows (start n length) n ByteArray.empty [] where
  partSize := rfl
  bytes := by rw [cut_empty]; rfl
  pending := by rw [cut_empty]; rfl
  index := rfl
  next := rfl
  size := rfl
  decided _ := rfl

/-- Numbers that go on where the last ones ended. -/
theorem index_append {sent sent' : List FilePart}
    (h : sent.map FilePart.index = (List.range sent.length).map Int32.ofNat)
    (h' : sent'.map FilePart.index = (List.range' sent.length sent'.length).map Int32.ofNat) :
    (sent ++ sent').map FilePart.index = (List.range (sent ++ sent').length).map Int32.ofNat := by
  rw [List.map_append, h, h', ← List.map_append, List.length_append, List.range_eq_range',
    List.range_eq_range', ← List.range'_append_1, Nat.zero_add]

/-- Writing more of the body keeps the invariant. -/
theorem Follows.write {b : PartBuffer} {n : Nat} {body : ByteArray} {sent : List FilePart}
    (h : Follows b n body sent) (data : ByteArray) :
    Follows (b.write data).2 n (body ++ data) (sent ++ (b.write data).1) := by
  obtain rfl := h.partSize
  have hr := putAll_releases (b := { b with
      pending := (cut b.partSize (b.pending ++ data)).2, size := b.size + data.size })
    h.decided (cut b.partSize (b.pending ++ data)).1
  have hcut := cut_append b.partSize body data
  rw [← h.pending, ← h.bytes] at hcut
  constructor
  · exact hr.partSize
  · rw [List.map_append, List.append_assoc, hcut, List.append_assoc, ← hr.bytes]
    rfl
  · rw [hcut]
    exact hr.pending
  · exact index_append h.index (h.next ▸ hr.index)
  · rw [List.length_append, ← h.next]
    exact hr.next
  · rw [ByteArray.size_append, ← h.size]
    exact hr.size
  · exact hr.decided

/-- At the end of the body all its parts have gone. -/
theorem Follows.finish {b : PartBuffer} {n : Nat} {body : ByteArray} {sent : List FilePart}
    (h : Follows b n body sent) (hn : 0 < n) :
    (sent ++ b.finish.1).map FilePart.bytes = parts n body ∧
    (sent ++ b.finish.1).map FilePart.index =
      (List.range (partCount n body.size)).map Int32.ofNat ∧
    b.finish.2.next = partCount n body.size ∧ b.finish.2.size = body.size := by
  have hr := put_releases (b := { b with pending := ByteArray.empty }) h.decided b.pending true
  have hheld := hr.decided (put_last_decided _ _)
  have hbytes : (sent ++ b.finish.1).map FilePart.bytes = parts n body := by
    have hlast := hr.bytes
    rw [hheld, List.append_nil] at hlast
    rw [← cut_eq_parts hn, ← h.bytes, ← h.pending, List.map_append, List.append_assoc, ← hlast]
    rfl
  have hlength : (sent ++ b.finish.1).length = partCount n body.size := by
    rw [← List.length_map, hbytes, length_parts]
  refine ⟨hbytes, ?_, ?_, hr.size.trans h.size⟩
  · rw [← hlength]
    exact index_append h.index (h.next ▸ hr.index)
  · rw [← hlength, List.length_append, ← h.next]
    exact hr.next

end Telebridge.PartBuffer
