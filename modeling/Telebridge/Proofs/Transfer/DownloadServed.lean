import Telebridge.Proofs.Transfer.Download
import Telebridge.Proofs.Transfer.DownloadFailure
set_option autoImplicit false

/-! # Servers of files

Two servers that a download can rely on: one that goes through a list of answers, and one that holds a
file and answers with the bytes that were asked for. Both may refuse now and then. -/

namespace Telebridge.Download

variable {location : FileLocation} {limit : Nat}

/-! ## Answers from a list -/

/-- Parts at least as long as asked for, then a shorter one, with refusals anywhere before it. -/
inductive Served (limit : Nat) : List (Except CallError Reply) → Prop
  | last {type : FileType} {mtime : Int32} {bytes : ByteArray} (h : bytes.size < limit) :
      Served limit [partReply type mtime bytes]
  | part {type : FileType} {mtime : Int32} {bytes : ByteArray} {rest : List (Except CallError Reply)}
      (h : limit ≤ bytes.size) (hr : Served limit rest) :
      Served limit (partReply type mtime bytes :: rest)
  | refused {e : CallError} {rest : List (Except CallError Reply)} (h : e.backoff?.isSome)
      (hr : Served limit rest) : Served limit (.error e :: rest)

/-- The server that gives the answers one after another. -/
def scripted (answers : List (Except CallError Reply)) : Server := fun calls _ answer =>
  answers[calls.length]? = some answer

/-- The answer after those that were given is the next of the list. -/
theorem scripted_iff {answers rest : List (Except CallError Reply)} {calls : List FileCall}
    {answer b : Except CallError Reply} {query : FileQuery}
    (h : calls.map Prod.snd ++ answer :: rest = answers) :
    scripted answers calls query b ↔ b = answer := by
  rw [scripted, ← h, List.getElem?_append_right (by simp)]
  simp [eq_comm]

/-- A server that has just one answer goes on with it. -/
theorem Serves.of_iff {server : Server} {Final : List FileCall → Prop} {calls : List FileCall}
    {answer : Except CallError Reply}
    (hs : ∀ b, server calls (nextQuery location limit calls) b ↔ b = answer) (ho : Orderly answer)
    (more : ¬ IsLast limit answer →
      Serves server location limit Final (calls ++ [(nextQuery location limit calls, answer)]))
    (final : IsLast limit answer → Final (calls ++ [(nextQuery location limit calls, answer)])) :
    Serves server location limit Final calls := by
  refine .step ⟨answer, (hs answer).2 rfl⟩ ?_ ?_ ?_
  · intro b hb
    exact (hs b).1 hb ▸ ho
  · intro b hb
    exact (hs b).1 hb ▸ more
  · intro b hb
    exact (hs b).1 hb ▸ final

/-- Such a server serves a download to the end of its list. -/
theorem scripted_serves {answers rest : List (Except CallError Reply)} {calls : List FileCall}
    (h : Served limit rest) (hcalls : calls.map Prod.snd ++ rest = answers) :
    Serves (scripted answers) location limit (fun calls => calls.map Prod.snd = answers) calls := by
  induction h generalizing calls with
  | @last type mtime bytes h =>
    refine .of_iff (fun b => scripted_iff hcalls) (.inr ⟨type, mtime, bytes, rfl⟩)
      (fun hl => absurd (isLast_partReply.2 h) hl) fun _ => ?_
    simpa using hcalls
  | @part type mtime bytes rest h _ ih =>
    refine .of_iff (fun b => scripted_iff hcalls) (.inr ⟨type, mtime, bytes, rfl⟩)
      (fun _ => ih ?_) fun hl => ?_
    · simpa using hcalls
    · exact absurd (isLast_partReply.1 hl) (Nat.not_lt.2 h)
  | @refused e rest h _ ih =>
    refine .of_iff (fun b => scripted_iff hcalls) (.inl ⟨e, rfl, h⟩) (fun _ => ih ?_) fun hl => ?_
    · simpa using hcalls
    · exact absurd hl (not_isLast_error e)

/-! ## Answers from a file -/

/-- The bytes that a request asks for. -/
def slice (content : ByteArray) (query : FileQuery) : ByteArray :=
  content.extract query.offset.toNatClampNeg
    (query.offset.toNatClampNeg + query.limit.toNatClampNeg)

/-- How often the server has refused. -/
def refusals (calls : List FileCall) : Nat :=
  calls.countP fun c => (partBytes? c.2).isNone

/-- The server that holds a file, and refuses at most so many times. -/
def serving (content : ByteArray) (bound : Nat) : Server := fun calls query answer =>
  (∃ type mtime, answer = partReply type mtime (slice content query)) ∨
  (refusals calls < bound ∧ ∃ e, answer = .error e ∧ e.backoff?.isSome)

theorem refusals_snoc_part (calls : List FileCall) (query : FileQuery) (type : FileType)
    (mtime : Int32) (bytes : ByteArray) :
    refusals (calls ++ [(query, partReply type mtime bytes)]) = refusals calls := by
  simp [refusals]

theorem refusals_snoc_error (calls : List FileCall) (query : FileQuery) (e : CallError) :
    refusals (calls ++ [(query, .error e)]) = refusals calls + 1 := by
  simp [refusals]

/-- The next request is for the bytes from the number of those that have arrived. -/
theorem slice_nextQuery {content : ByteArray} {calls : List FileCall}
    (hlimit : limit ≤ Int32.maxValue.toNatClampNeg)
    (hsize : (Bytes.concat (received calls)).size ≤ Int64.maxValue.toNatClampNeg) :
    slice content (nextQuery location limit calls) =
      content.extract (Bytes.concat (received calls)).size
        ((Bytes.concat (received calls)).size + limit) := by
  simp only [slice, nextQuery, Int64.toNatClampNeg_ofNat_of_lt (Nat.lt_succ_of_le hsize),
    Int32.toNatClampNeg_ofNat_of_lt (Nat.lt_succ_of_le hlimit)]

/-- Such a server serves a download, and what arrives is the file. -/
theorem serving_serves {content : ByteArray} {bound : Nat} (hpos : 0 < limit)
    (hlimit : limit ≤ Int32.maxValue.toNatClampNeg)
    (hcontent : content.size ≤ Int64.maxValue.toNatClampNeg) {n : Nat} {calls : List FileCall}
    (hn : n = bound - refusals calls + (content.size - (Bytes.concat (received calls)).size))
    (hle : (Bytes.concat (received calls)).size ≤ content.size)
    (h : Bytes.concat (received calls) =
      content.extract 0 (Bytes.concat (received calls)).size) :
    Serves (serving content bound) location limit
      (fun calls => Bytes.concat (received calls) = content) calls := by
  induction n using Nat.strongRecOn generalizing calls with
  | ind n ih =>
    have hslice : slice content (nextQuery location limit calls) =
        content.extract (Bytes.concat (received calls)).size
          ((Bytes.concat (received calls)).size + limit) :=
      slice_nextQuery hlimit (Nat.le_trans hle hcontent)
    -- what has arrived and the bytes asked for next are again a beginning of the file
    have hjoin : Bytes.concat (received calls) ++ slice content (nextQuery location limit calls) =
        content.extract 0 ((Bytes.concat (received calls)).size + limit) := by
      rw [hslice]
      conv => lhs; lhs; rw [h]
      rw [ByteArray.extract_append_extract, Nat.zero_min, Nat.max_eq_right (Nat.le_add_right _ _)]
    refine .step ⟨_, .inl ⟨.unknown, 0, rfl⟩⟩ ?_ ?_ ?_
    · rintro _ (⟨type, mtime, rfl⟩ | ⟨_, e, rfl, he⟩)
      · exact .inr ⟨type, mtime, _, rfl⟩
      · exact .inl ⟨e, rfl, he⟩
    · rintro _ (⟨type, mtime, rfl⟩ | ⟨hb, e, rfl, he⟩) hlast
      · rw [isLast_partReply, hslice, ByteArray.size_extract] at hlast
        have hsize : (Bytes.concat (received (calls ++
            [(nextQuery location limit calls, partReply type mtime
              (slice content (nextQuery location limit calls)))]))).size =
            (Bytes.concat (received calls)).size + limit := by
          rw [received_snoc_part, hslice, Bytes.concat_append, ByteArray.size_append]
          simp
          omega
        refine ih _ ?_ rfl ?_ ?_
        · rw [hsize, hn, refusals_snoc_part]
          omega
        · rw [hsize]
          omega
        · rw [hsize, received_snoc_part, Bytes.concat_append, ← hjoin]
          simp
      · refine ih _ ?_ rfl ?_ ?_
        · rw [hn, received_snoc_error, refusals_snoc_error]
          omega
        · rw [received_snoc_error]
          exact hle
        · rw [received_snoc_error]
          exact h
    · rintro _ (⟨type, mtime, rfl⟩ | ⟨_, e, rfl, he⟩) hlast
      · rw [isLast_partReply, hslice, ByteArray.size_extract] at hlast
        have hmax : (Bytes.concat (received calls)).size + limit =
            max ((Bytes.concat (received calls)).size + limit) content.size := by
          omega
        rw [received_snoc_part, Bytes.concat_append, Bytes.concat_cons, Bytes.concat_nil,
          ByteArray.append_empty, hjoin, hmax, ByteArray.extract_zero_max_size]
      · exact absurd hlast (not_isLast_error e)

/-! ## Downloads -/

/-- A download from a server that gives parts, the last of them short, with refusals in between, ends
well: the storage is opened once, gets the parts that are not empty and one empty frame, and is closed
once; every request is for what comes after the parts that have arrived, so a retry repeats it. From
a server that holds a file, the frames make up the file. And in a download that fails, nothing is sent
after the failure and the storage is never closed, whatever the server and the storage do. -/
theorem toStorage_faithful [Url.DomainMapping] {R : Others} (file : Envelope.File)
    (location : FileLocation) (a : Account) (hR : ∀ a b, R.may a b → b.config = a.config)
    (hlimit : a.config.partSize ≤ Int32.maxValue.toNatClampNeg) :
    (∀ answers, Served a.config.partSize answers →
      Program.Returns R (accepting (scripted answers))
        (fun r t _ => (∃ stored, r = .ok stored) ∧
          (∃ upload, storageLog t = fullLog upload (answers.filterMap partBytes?)) ∧
          (fileCalls t).map Prod.snd = answers ∧
          InOrder location a.config.partSize (fileCalls t) ∧
          ∀ i (h : i + 1 < (fileCalls t).length), partBytes? (fileCalls t)[i].2 = none →
            (fileCalls t)[i + 1].1 = (fileCalls t)[i].1)
        (toStorage file location) [] a) ∧
    (∀ content bound, content.size ≤ Int64.maxValue.toNatClampNeg →
      Program.Returns R (accepting (serving content bound))
        (fun r t _ => (∃ stored, r = .ok stored) ∧
          Bytes.concat (sentFrames (storageLog t)) = content)
        (toStorage file location) [] a) ∧
    ∀ q b t₁ e t₂, Program.Run R (toStorage file location) a (t₁ ++ e :: t₂) q b → Failure e →
      (∀ upload, .closed upload ∉ storageLog (t₁ ++ e :: t₂)) ∧ storageLog t₂ = [] ∧
        ∀ r, q = .done r → ∃ err, r = .error err := by
  have hpos : 0 < a.config.partSize := Nat.lt_of_lt_of_le Nat.one_pos (Nat.le_max_right _ _)
  refine ⟨fun answers h => ?_, fun content bound hcontent => ?_, ?_⟩
  · refine (toStorage_returns hR (scripted_serves h (List.nil_append answers))).mono ?_
    rintro r t b ⟨hr, ⟨upload, hlog⟩, hinOrder, hanswers⟩
    refine ⟨hr, ⟨upload, ?_⟩, hanswers, hinOrder, fun i hi he => hinOrder.retry hi he⟩
    rw [hlog, received_eq, hanswers]
  · refine (toStorage_returns hR (serving_serves hpos hlimit hcontent rfl ?_ ?_)).mono ?_
    · exact Nat.zero_le _
    · simp
    · rintro r t b ⟨hr, ⟨upload, hlog⟩, -, hfinal⟩
      refine ⟨hr, ?_⟩
      rw [hlog, concat_sentFrames, hfinal]
  · intro q b t₁ e t₂ hrun he
    exact toStorage_stops hrun he

/-- A file of three bytes in parts of two, with a timeout in between. -/
theorem toStorage_faithful_three_bytes :
    let a : Account := { config := { chunkSize := 2 }, profile := 0 }
    let answers := [partReply .unknown 0 ⟨#[97, 98]⟩, .error .timeout, partReply .unknown 0 ⟨#[99]⟩]
    (∀ a b, Others.nobody.may a b → b.config = a.config) ∧
      a.config.partSize ≤ Int32.maxValue.toNatClampNeg ∧ Served a.config.partSize answers ∧
      ∃ t r b upload,
        Program.Run Others.nobody (toStorage {} default) a t (.done (.ok r)) b ∧
        (fileCalls t).map Prod.snd = answers ∧
        storageLog t = [.opened (.ok upload), .sent upload ⟨#[97, 98]⟩, .sent upload ⟨#[99]⟩,
          .sent upload ByteArray.empty, .closed upload] := by
  intro a answers
  have hR : ∀ a b, Others.nobody.may a b → b.config = a.config := fun _ _ h => congrArg _ h
  have hlimit : a.config.partSize ≤ Int32.maxValue.toNatClampNeg := by decide
  have hserved : Served a.config.partSize answers :=
    .part (by decide) (.refused rfl (.last (by decide)))
  refine ⟨hR, hlimit, hserved, ?_⟩
  have h := (toStorage_faithful {} default a hR hlimit).1 answers hserved
  obtain ⟨t, r, b, hrun, henv⟩ := h.exists_run
  obtain ⟨⟨stored, rfl⟩, ⟨upload, hlog⟩, hanswers, -⟩ := h.of_run hrun henv
  exact ⟨t, stored, b, upload, hrun, hanswers, hlog⟩

end Telebridge.Download
