import Telebridge.Proofs.Media.PartBuffer
set_option autoImplicit false

/-! # How parts are sent

Whether a file is big depends on the length of its body alone, and so does, but for one thing, how its
parts are sent: without an announced length the parts of a big file before the last do not tell how many
there are. `PartBuffer.plan` says what has to be sent of a body, and a buffer sends just that, however
the body arrives (`writeAll_finish`). The proof keeps apart the ways in which a buffer can have settled
what it knows about the file (`PartBuffer.Settled`). -/

namespace Telebridge.PartBuffer

/-! ## What has to be sent -/

/-- How the last of `count` parts of a body is sent. -/
def lastKind (size count : Nat) : PartKind :=
  if size < bigFileThreshold then .small else .big (Int32.ofNat count)

/-- How the parts before it are sent, with the length of the body announced or not. -/
def earlierKind (announced : Bool) (size count : Nat) : PartKind :=
  if size < bigFileThreshold then .small
  else if announced then .big (Int32.ofNat count) else .big (-1)

/-- How part `i` of `count` is sent. -/
def kindAt (announced : Bool) (size count i : Nat) : PartKind :=
  if i + 1 = count then lastKind size count else earlierKind announced size count

/-- What has to be sent of a body. -/
def plan (announced : Bool) (n : Nat) (body : ByteArray) : List FilePart :=
  (parts n body).mapIdx fun i bytes =>
    ⟨Int32.ofNat i, kindAt announced body.size (partCount n body.size) i, bytes⟩

/-- Takes the pieces of a body one after the other. -/
def writeAll (b : PartBuffer) : List ByteArray → List FilePart × PartBuffer
  | [] => ([], b)
  | data :: rest =>
    let first := b.write data
    let others := first.2.writeAll rest
    (first.1 ++ others.1, others.2)

theorem partCount_pos (n length : Nat) : 0 < partCount n length :=
  Nat.lt_of_lt_of_le Nat.one_pos (Nat.le_max_left _ _)

theorem length_plan (announced : Bool) (n : Nat) (body : ByteArray) :
    (plan announced n body).length = partCount n body.size := by
  rw [plan, List.length_mapIdx, length_parts]

/-- The kinds of all parts but the last, and of the last. -/
theorem map_kindAt (announced : Bool) (size k : Nat) :
    (List.range (k + 1)).map (kindAt announced size (k + 1)) =
      List.replicate k (earlierKind announced size (k + 1)) ++ [lastKind size (k + 1)] := by
  rw [List.range_succ, List.map_append, List.map_singleton, kindAt, if_pos rfl]
  congr 1
  rw [List.eq_replicate_iff]
  refine ⟨by simp, fun kind hkind => ?_⟩
  obtain ⟨i, hi, rfl⟩ := List.mem_map.1 hkind
  rw [List.mem_range] at hi
  rw [kindAt, if_neg (by omega)]

/-- Parts with the right bytes, numbers and kinds are what has to be sent. -/
theorem eq_plan {announced : Bool} {n : Nat} {body : ByteArray} {ps : List FilePart}
    (hbytes : ps.map FilePart.bytes = parts n body)
    (hindex : ps.map FilePart.index = (List.range (partCount n body.size)).map Int32.ofNat)
    (hkind : ps.map FilePart.kind = (List.range (partCount n body.size)).map
      (kindAt announced body.size (partCount n body.size))) :
    ps = plan announced n body := by
  have hlength : ps.length = partCount n body.size := by
    rw [← List.length_map, hbytes, length_parts]
  refine List.ext_getElem (by rw [hlength, length_plan]) fun i hi hi' => ?_
  have hparts : i < (parts n body).length := by rwa [length_parts, ← hlength]
  have hb : ps[i].bytes = (parts n body)[i] := by
    have h := List.getElem_of_eq hbytes (i := i) (by simpa using hi)
    simpa using h
  have hx : ps[i].index = Int32.ofNat i := by
    have h := List.getElem_of_eq hindex (i := i) (by simpa using hi)
    simpa using h
  have hk : ps[i].kind = kindAt announced body.size (partCount n body.size) i := by
    have h := List.getElem_of_eq hkind (i := i) (by simpa using hi)
    simpa using h
  simp only [plan, List.getElem_mapIdx, ← hb, ← hx, ← hk]

/-! ## Kinds of parts that go -/

/-- Before the last part all are of one kind. -/
theorem kind_of_release {b : PartBuffer} {pieces : List ByteArray} {p : FilePart}
    (h : p ∈ (b.release false pieces).1) : p.kind = b.partKind false := by
  induction pieces generalizing b with
  | nil => cases h
  | cons piece rest ih =>
    rcases List.mem_cons.1 h with rfl | h
    · rfl
    · exact (ih h).trans rfl

/-- Only the last part may be of another kind. -/
theorem map_kind_release_last (b : PartBuffer) (pieces : List ByteArray) (last : ByteArray) :
    (b.release true (pieces ++ [last])).1.map FilePart.kind =
      List.replicate pieces.length (b.partKind false) ++
        [{ b with next := b.next + pieces.length }.partKind true] := by
  induction pieces generalizing b with
  | nil => rfl
  | cons piece rest ih =>
    have hrest : (rest ++ [last]).isEmpty = false := by simp
    simp only [List.cons_append, release, hrest, List.map_cons, ih, List.length_cons,
      List.replicate_succ, Bool.and_false]
    rw [Nat.add_assoc, Nat.add_comm 1]
    rfl

/-! ## What a buffer knows -/

/-- What a buffer has settled about a body of `size` bytes, whose length is announced or not, and how it
has sent parts so far. -/
inductive Settled (n size : Nat) : Option Nat → PartBuffer → List FilePart → Prop
  | small {b : PartBuffer} {sent : List FilePart} (hmode : b.mode = .small)
      (hsize : size < bigFileThreshold) (h : ∀ p ∈ sent, p.kind = .small) :
      Settled n size (some size) b sent
  | big {b : PartBuffer} {sent : List FilePart}
      (hmode : b.mode = .big (some (Int32.ofNat (partCount n size))))
      (hsize : bigFileThreshold ≤ size)
      (h : ∀ p ∈ sent, p.kind = .big (Int32.ofNat (partCount n size))) :
      Settled n size (some size) b sent
  | growing {b : PartBuffer} {sent : List FilePart} (hmode : b.mode = .big none)
      (hsize : bigFileThreshold ≤ b.size) (h : ∀ p ∈ sent, p.kind = .big (-1)) :
      Settled n size none b sent
  | undecided {b : PartBuffer} (hmode : b.mode = .undecided) : Settled n size none b []

variable {n size : Nat} {length : Option Nat} {b : PartBuffer} {sent : List FilePart}

theorem start_settled (h : length = none ∨ length = some size) :
    Settled n size length (start n length) [] := by
  rcases h with rfl | rfl
  · exact .undecided rfl
  · by_cases hsize : bigFileThreshold ≤ size
    · refine .big ?_ hsize (by simp)
      simp only [start, modeFor, if_pos hsize]
      rw [partCount, Nat.max_comm]
    · refine .small ?_ (by omega) (by simp)
      simp only [start, modeFor, if_neg hsize]

/-- What a buffer has settled does not depend on what is pending, and stays so when more arrives. -/
theorem Settled.arrive (h : Settled n size length b sent) (pending : ByteArray) (more : Nat) :
    Settled n size length { b with pending, size := b.size + more } sent := by
  cases h with
  | small hmode hsize h => exact .small hmode hsize h
  | big hmode hsize h => exact .big hmode hsize h
  | growing hmode hsize h => exact .growing hmode (Nat.le_add_right_of_le hsize) h
  | undecided hmode => exact .undecided hmode

theorem Settled.put (h : Settled n size length b sent) (piece : ByteArray) :
    Settled n size length (b.put piece false).2 (sent ++ (b.put piece false).1) := by
  have hmode (pieces : List ByteArray) : (b.release false pieces).2.mode = b.mode := by
    rw [(release_eq b false pieces).2.2]
  have hall {kind : PartKind} {pieces : List ByteArray} (hkind : b.partKind false = kind)
      (h : ∀ p ∈ sent, p.kind = kind) : ∀ p ∈ sent ++ (b.release false pieces).1, p.kind = kind :=
    List.forall_mem_append.2 ⟨h, fun _ hp => (kind_of_release hp).trans hkind⟩
  cases h with
  | small hm hsize h =>
    simp only [PartBuffer.put, hm]
    exact .small ((hmode _).trans hm) hsize (hall (by simp only [partKind, hm]) h)
  | big hm hsize h =>
    simp only [PartBuffer.put, hm]
    exact .big ((hmode _).trans hm) hsize (hall (by simp only [partKind, hm]) h)
  | growing hm hsize h =>
    simp only [PartBuffer.put, hm]
    refine .growing ((hmode _).trans hm) ?_ (hall (by simp [partKind, hm]) h)
    rw [(release_eq b false _).2.2]
    exact hsize
  | undecided hm =>
    simp only [PartBuffer.put, hm]
    split
    · next hsize =>
      rw [List.nil_append]
      refine .growing ?_ ?_ fun p hp => kind_of_release hp
      · rw [(release_eq _ false _).2.2]
      · rw [(release_eq _ false _).2.2]
        exact hsize
    · exact .undecided rfl

theorem Settled.putAll (h : Settled n size length b sent) (pieces : List ByteArray) :
    Settled n size length (b.putAll pieces).2 (sent ++ (b.putAll pieces).1) := by
  induction pieces generalizing b sent with
  | nil => simpa [PartBuffer.putAll] using h
  | cons piece rest ih =>
    have hrest := ih (h.put piece)
    rwa [List.append_assoc] at hrest

theorem Settled.write (h : Settled n size length b sent) (data : ByteArray) :
    Settled n size length (b.write data).2 (sent ++ (b.write data).1) :=
  (h.arrive _ data.size).putAll _

/-! ## The whole body -/

theorem Settled.writeAll (h : Settled n size length b sent) (chunks : List ByteArray) :
    Settled n size length (b.writeAll chunks).2 (sent ++ (b.writeAll chunks).1) := by
  induction chunks generalizing b sent with
  | nil => simpa [PartBuffer.writeAll] using h
  | cons data rest ih =>
    have hrest := ih (h.write data)
    rwa [List.append_assoc] at hrest

theorem Follows.writeAll {body : ByteArray} (h : Follows b n body sent)
    (chunks : List ByteArray) :
    Follows (b.writeAll chunks).2 n (body ++ Bytes.concat chunks) (sent ++ (b.writeAll chunks).1) := by
  induction chunks generalizing b sent body with
  | nil => simpa [PartBuffer.writeAll] using h
  | cons data rest ih =>
    have hrest := ih (h.write data)
    rwa [List.append_assoc, ByteArray.append_assoc] at hrest

/-- A buffer that has settled the kind of file lets a single part go at the end. -/
theorem finish_of_decided (h : b.mode ≠ .undecided) :
    b.finish = { b with pending := ByteArray.empty }.release true [b.pending] := by
  rcases hm : b.mode with _ | total | _
  · simp only [PartBuffer.finish, PartBuffer.put, hm]
  · simp only [PartBuffer.finish, PartBuffer.put, hm]
  · exact absurd hm h

/-- What is left at the end is sent as it has to be, and the kind of file is that of its length. -/
theorem Settled.finish {k : Nat} (h : Settled n size length b sent) (hcount : partCount n size = k + 1)
    (hsize : b.size = size) (hnext : b.next = sent.length)
    (hlength : (sent ++ b.finish.1).length = k + 1) :
    (sent ++ b.finish.1).map FilePart.kind =
      List.replicate k (earlierKind length.isSome size (k + 1)) ++ [lastKind size (k + 1)] ∧
    (size < bigFileThreshold ∧ b.finish.2.mode = .small ∨
      bigFileThreshold ≤ size ∧ ∃ total, b.finish.2.mode = .big total) := by
  have hall {kind : PartKind} (h : ∀ p ∈ sent, p.kind = kind) (hk : sent.length = k) :
      sent.map FilePart.kind = List.replicate k kind := by
    rw [← hk, List.map_eq_replicate_iff]
    exact h
  have hone (hm : b.mode ≠ .undecided) : sent.length = k := by
    rw [finish_of_decided hm, List.length_append] at hlength
    simpa [release] using hlength
  have hlast (hm : b.mode ≠ .undecided) :
      b.finish.1.map FilePart.kind = [b.partKind true] ∧ b.finish.2.mode = b.mode := by
    rw [finish_of_decided hm]
    exact ⟨rfl, rfl⟩
  rw [List.map_append]
  cases h with
  | small hm hlt h =>
    have hd : b.mode ≠ .undecided := by simp [hm]
    obtain ⟨hkind, hmode⟩ := hlast hd
    refine ⟨?_, .inl ⟨hlt, hmode.trans hm⟩⟩
    rw [hall h (hone hd), hkind]
    simp [earlierKind, lastKind, hlt, partKind, hm]
  | big hm hle h =>
    have hd : b.mode ≠ .undecided := by simp [hm]
    obtain ⟨hkind, hmode⟩ := hlast hd
    refine ⟨?_, .inr ⟨hle, _, hmode.trans hm⟩⟩
    rw [hall h (hone hd), hkind]
    simp [earlierKind, lastKind, Nat.not_lt.2 hle, partKind, hm, hcount]
  | growing hm hle h =>
    have hd : b.mode ≠ .undecided := by simp [hm]
    obtain ⟨hkind, hmode⟩ := hlast hd
    rw [hsize] at hle
    refine ⟨?_, .inr ⟨hle, _, hmode.trans hm⟩⟩
    rw [hall h (hone hd), hkind]
    simp [earlierKind, lastKind, Nat.not_lt.2 hle, partKind, hm, hnext, hone hd, Int32.ofNat_add]
  | undecided hm =>
    -- nothing has gone yet, so all parts go now
    have hheld {mode : PartMode} (hf : b.finish =
        { b with pending := ByteArray.empty, mode, held := [] }.release true
          (b.held ++ [b.pending])) : b.held.length = k := by
      rw [hf, List.nil_append, ← List.length_map FilePart.bytes, (release_eq _ true _).1] at hlength
      simpa using hlength
    by_cases hle : bigFileThreshold ≤ b.size
    · have hf : b.finish = { b with pending := ByteArray.empty, mode := .big none, held := [] }.release
          true (b.held ++ [b.pending]) := by
        simp only [PartBuffer.finish, PartBuffer.put, hm, if_pos hle]
      refine ⟨?_, .inr ⟨hsize ▸ hle, none, ?_⟩⟩
      · rw [hf, map_kind_release_last, hheld hf]
        simp [earlierKind, lastKind, Nat.not_lt.2 (hsize ▸ hle), partKind, hnext, Int32.ofNat_add]
      · rw [hf, (release_eq _ true _).2.2]
    · have hf : b.finish = { b with pending := ByteArray.empty, mode := .small, held := [] }.release
          true (b.held ++ [b.pending]) := by
        simp only [PartBuffer.finish, PartBuffer.put, hm, if_neg hle, if_true]
      have hlt : size < bigFileThreshold := by omega
      refine ⟨?_, .inl ⟨hlt, ?_⟩⟩
      · rw [hf, map_kind_release_last, hheld hf]
        simp [earlierKind, lastKind, hlt, partKind]
      · rw [hf, (release_eq _ true _).2.2]

/-- What has to be sent goes while the body arrives and at its end. A small file whose length is not
announced goes at the end only. -/
theorem writeAll_finish {body : ByteArray} {chunks : List ByteArray} (hn : 0 < n)
    (hbody : Bytes.concat chunks = body) (h : length = none ∨ length = some body.size) :
    let r := (start n length).writeAll chunks
    r.1 ++ r.2.finish.1 = plan length.isSome n body ∧
    (length = none → body.size < bigFileThreshold → r.1 = []) ∧
    r.2.finish.2.size = body.size ∧
    ∀ id name, r.2.finish.2.inputFile id name =
      if bigFileThreshold ≤ body.size then .big id (Int32.ofNat (partCount n body.size)) name
      else .small id (Int32.ofNat (partCount n body.size)) name "" := by
  intro r
  have hs : Settled n body.size length r.2 r.1 := (start_settled h).writeAll chunks
  have hf : Follows r.2 n body r.1 := by
    have hf := (start_follows n length).writeAll chunks
    rwa [ByteArray.empty_append, hbody] at hf
  obtain ⟨hbytes, hindex, hcount, hsize⟩ := hf.finish hn
  have hlength : (r.1 ++ r.2.finish.1).length = partCount n body.size := by
    rw [← List.length_map, hbytes, length_parts]
  obtain ⟨k, hk⟩ : ∃ k, partCount n body.size = k + 1 :=
    ⟨partCount n body.size - 1, by have := partCount_pos n body.size; omega⟩
  obtain ⟨hkind, hmode⟩ := hs.finish hk hf.size hf.next (hk ▸ hlength)
  refine ⟨eq_plan hbytes hindex ?_, ?_, hsize, fun id name => ?_⟩
  · rw [hk, map_kindAt, hkind]
  · rintro rfl hlt
    generalize hsent : r.1 = sent at hs
    cases hs with
    | growing _ hle _ =>
      rw [hf.size] at hle
      omega
    | undecided _ => rfl
  · rw [inputFile, hcount]
    obtain ⟨hlt, hm⟩ | ⟨hle, total, hm⟩ := hmode
    · rw [hm, if_neg (Nat.not_le.2 hlt)]
    · rw [hm, if_pos hle]

end Telebridge.PartBuffer
