import Telebridge.Proofs.Call.Retry
import Telebridge.Proofs.Media.PartBuffer
import Telebridge.Proofs.Transfer.UploadFailure
set_option autoImplicit false

/-! # Uploads send the body in parts

An upload reads a body chunk by chunk and sends the parts that its buffer lets go. The loop is followed
turn by turn: what has been transmitted are the parts that the buffer has let go of the chunks that
have arrived. At the end these are the parts of the whole body, however it was cut into chunks. -/

namespace Telebridge.Upload

open Pipeline PartBuffer

variable {R : Others}

/-! ## Surroundings that accept everything -/

/-- The surroundings in which a body arrives in some chunks, with its length announced or not, and
every part is accepted in the end: the server refuses only so that the policy repeats the call, and at
most so many times. Nothing is cancelled. -/
def accepting (policy : RetryPolicy) (chunks : List ByteArray) (bound : Nat) : Environment :=
  fun t e =>
    match e with
    | .answered (.call _) answer =>
      (∃ b : Bool, answer = .ok ⟨.bool, b⟩) ∨
      (refusals (calls t) < bound ∧
        ∃ e, answer = .error e ∧ (policy.delay? (failures (calls t)) e).isSome)
    | .answered (.fetch _) answer =>
      ∃ response : WebResponse, answer = .ok response ∧ response.status < 400 ∧
        (response.length = none ∨ response.length = some (Bytes.concat chunks).size)
    | .answered (.nextChunk _) answer => answer = .ok chunks[chunksTaken t]?
    | .paused _ how => how = .elapsed
    | .cancelled => False
    | _ => True

/-- The number and the bytes of a part, if the request sends one. -/
def part? : Request → Option (Int × ByteArray)
  | .saveFilePart _ index bytes => some (index.toInt, bytes)
  | .saveBigFilePart _ index _ bytes => some (index.toInt, bytes)
  | _ => none

theorem part?_partRequest (fileId : Int64) (p : FilePart) :
    part? (partRequest fileId p) = some (p.index.toInt, p.bytes) := by
  unfold partRequest
  split <;> rfl

theorem expected_partRequest (fileId : Int64) (p : FilePart) :
    (partRequest fileId p).expected = .bool := by
  unfold partRequest
  split <;> rfl

/-- The requests for parts whose numbers and bytes are known. -/
theorem map_part? {fileId : Int64} {ps : List FilePart} {pieces : List ByteArray}
    (hbytes : ps.map FilePart.bytes = pieces)
    (hindex : ps.map FilePart.index = (List.range pieces.length).map Int32.ofNat)
    (hcount : pieces.length ≤ Int32.maxValue.toNatClampNeg) :
    (ps.map (partRequest fileId)).map part? =
      pieces.mapIdx fun i bytes => some (Int.ofNat i, bytes) := by
  have hlength : ps.length = pieces.length := by rw [← hbytes, List.length_map]
  refine List.ext_getElem (by simp [hlength]) fun i hi hi' => ?_
  have hi : i < pieces.length := by simpa using hi'
  have hindex : ps[i].index = Int32.ofNat i := by
    have h := List.getElem_of_eq hindex (i := i) (by simpa [hlength] using hi)
    simpa using h
  have hbytes : ps[i].bytes = pieces[i] := by
    have h := List.getElem_of_eq hbytes (i := i) (by simpa [hlength] using hi)
    simpa using h
  simp only [List.getElem_map, List.getElem_mapIdx, part?_partRequest, hindex, hbytes,
    Int32.toInt_ofNat_of_lt (Nat.lt_trans hi (Nat.lt_succ_of_le hcount))]
  rfl

/-- A reply of the promised kind has a value. -/
theorem outcome_of_expected {request : Request} {b : Bool} (h : request.expected = .bool) :
    ∃ v, outcome request (.ok ⟨.bool, b⟩) = .ok v := by
  refine ⟨h ▸ b, outcome_ok ?_⟩
  simp [Reply.value?, h]

/-! ## Sending parts -/

/-- A call that is refused as the policy allows is answered in the end. -/
theorem callWithRetry_returns {policy : RetryPolicy} {chunks : List ByteArray} {bound : Nat}
    {requests : List Request} {request : Request} {t : List Event} {a : Account}
    (hR : ∀ a b, R.may a b → b.config = a.config) (hreq : request.expected = .bool)
    (h : Transmits requests (calls t)) :
    Program.Returns R (accepting policy chunks bound)
      (fun r t' b => (∃ v, r = .ok v) ∧ Transmits (requests ++ [request]) (calls t') ∧
        chunksTaken t' = chunksTaken t ∧ b.config = a.config)
      (callWithRetry policy request) t a := by
  refine Program.Returns.iterate (fun n f t' b => failures (calls t') = f ∧
    n = bound - refusals (calls t') ∧ chunksTaken t' = chunksTaken t ∧ b.config = a.config ∧
    ∃ es : List CallError, calls t' = calls t ++ es.map fun e => (request, .error e)) ?_
    ⟨h.failures_eq, rfl, rfl, rfl, [], by simp⟩
  rintro n f t₁ a₁ ⟨rfl, rfl, hchunks, hconfig, es, hcalls⟩
  refine Program.Returns.call ⟨.ok ⟨.bool, true⟩, .inl ⟨true, rfl⟩⟩ ?_ ?_
  · rintro _ updates (⟨b, rfl⟩ | ⟨_, e, rfl, _⟩) hu <;> cases hu
  · intro answer es' a₂ a₃ ha₂ ha₃ hes henv
    have hconfig₃ : a₃.config = a.config := by
      rw [hR _ _ ha₃, learn_config, hR _ _ ha₂, hconfig]
    obtain ⟨b, rfl⟩ | ⟨hbound, e, rfl, he⟩ := hes.allowed henv
    · obtain rfl := hes.eq rfl
      obtain ⟨v, hv⟩ := outcome_of_expected (b := b) hreq
      rw [hv]
      refine .done fun a₄ ha₄ => ⟨⟨v, rfl⟩, ?_, ?_, (hR _ _ ha₄).trans hconfig₃⟩
      · rw [calls_append, hcalls]
        exact .snoc es h
      · simpa [chunksTaken] using hchunks
    · obtain rfl := hes.eq rfl
      obtain ⟨ms, hms⟩ := Option.isSome_iff_exists.1 he
      simp only [outcome, hms]
      refine Program.Returns.pause ⟨.elapsed, rfl⟩ ?_
      rintro how a₄ ha₄ rfl
      have hcalls' : calls (t₁ ++ [.answered (.call request) (.error e)] ++
          [.paused ms .elapsed]) = calls t₁ ++ [(request, .error e)] := by
        simp [calls, call?.eq_def]
      refine .done fun a₅ ha₅ => ⟨_, ?_, ?_, rfl, ?_, ?_, es ++ [e], ?_⟩
      · rw [hcalls', refusals_snoc_error]
        omega
      · rw [hcalls', failures_snoc_error]
      · simpa [chunksTaken] using hchunks
      · rw [hR _ _ ha₅, hR _ _ ha₄, hconfig₃]
      · rw [hcalls', hcalls]
        simp

/-- Parts are sent in order. -/
theorem sendParts_returns {policy : RetryPolicy} {chunks : List ByteArray} {bound : Nat}
    {requests : List Request} {fileId : Int64} {ps : List FilePart} {t : List Event} {a : Account}
    (hR : ∀ a b, R.may a b → b.config = a.config) (hpolicy : a.config.retryPolicy = policy)
    (h : Transmits requests (calls t)) :
    Program.Returns R (accepting policy chunks bound)
      (fun r t' b => r = .ok () ∧
        Transmits (requests ++ ps.map (partRequest fileId)) (calls t') ∧
        chunksTaken t' = chunksTaken t ∧ b.config = a.config)
      (sendParts fileId ps) t a := by
  induction ps generalizing requests t a with
  | nil =>
    refine .done fun b hb => ⟨rfl, ?_, rfl, hR _ _ hb⟩
    rwa [List.map_nil, List.append_nil]
  | cons p rest ih =>
    have hcall : Program.Returns R (accepting policy chunks bound)
        (fun r t' b => (∃ v, r = .ok v) ∧
          Transmits (requests ++ [partRequest fileId p]) (calls t') ∧
          chunksTaken t' = chunksTaken t ∧ b.config = a.config)
        (callPersistently (partRequest fileId p)) t a := by
      refine Program.Returns.read fun a₁ ha₁ => ?_
      rw [hR _ _ ha₁, hpolicy, ← hR _ _ ha₁]
      exact callWithRetry_returns hR (expected_partRequest fileId p) h
    refine Program.Returns.bind hcall ?_
    rintro _ t₁ a₁ ⟨⟨v, rfl⟩, htransmits, hchunks, hconfig⟩
    refine (ih (hconfig ▸ hpolicy) htransmits).mono ?_
    rintro _ t₂ b ⟨rfl, htransmits₂, hchunks₂, hconfig₂⟩
    refine ⟨rfl, ?_, hchunks₂.trans hchunks, hconfig₂.trans hconfig⟩
    rwa [List.map_cons, ← List.singleton_append, ← List.append_assoc]

/-! ## The loop -/

/-- How far an upload has come in a history: the buffer has seen the chunks that were taken, and the
parts that it let go have been transmitted. -/
def Sends (fileId : Int64) (partSize : Nat) (chunks : List ByteArray) (buffer : PartBuffer)
    (t : List Event) : Prop :=
  ∃ sent, buffer.Follows partSize (Bytes.concat (chunks.take (chunksTaken t))) sent ∧
    Transmits (sent.map (partRequest fileId)) (calls t)

/-- A body that was sent as a whole: its parts, numbered from zero, in order. -/
def Sent (partSize : Nat) (body : ByteArray) (t : List Event) : Prop :=
  ∃ requests, Transmits requests (calls t) ∧
    requests.map part? = (parts partSize body).mapIdx fun i bytes => some (Int.ofNat i, bytes)

/-- The next chunk arrives, or the end of the body. -/
theorem nextChunk_returns {policy : RetryPolicy} {chunks : List ByteArray} {bound body : Nat}
    {t : List Event} {a : Account} (hR : ∀ a b, R.may a b → b.config = a.config) :
    Program.Returns R (accepting policy chunks bound)
      (fun r t' b => r = .ok chunks[chunksTaken t]? ∧ calls t' = calls t ∧
        chunksTaken t' = chunksTaken t + 1 ∧ b.config = a.config)
      (Program.external (.nextChunk body)) t a := by
  refine .answer ⟨_, rfl⟩ fun r b hb henv => ⟨henv, ?_, ?_, hR _ _ hb⟩
  · simp [calls, call?.eq_def]
  · simp [chunksTaken]

/-- A turn sends what the next chunk completes, or all that is left. -/
theorem turn_returns {policy : RetryPolicy} {chunks : List ByteArray} {bound : Nat} {url : String}
    {fileId : Int64} {body : Nat} {buffer : PartBuffer} {partSize : Nat} {t : List Event}
    {a : Account} (hR : ∀ a b, R.may a b → b.config = a.config)
    (hpolicy : a.config.retryPolicy = policy) (hpos : 0 < partSize)
    (hcount : partCount partSize (Bytes.concat chunks).size ≤ Int32.maxValue.toNatClampNeg)
    (h : Sends fileId partSize chunks buffer t) :
    Program.Returns R (accepting policy chunks bound)
      (Program.EndOfTurn
        (fun buffer' t' b => Sends fileId partSize chunks buffer' t' ∧
          chunksTaken t < chunks.length ∧ chunksTaken t' = chunksTaken t + 1 ∧ b.config = a.config)
        fun r t' _ => ∃ buffer', r = .ok buffer' ∧ Sent partSize (Bytes.concat chunks) t' ∧
          buffer'.next = partCount partSize (Bytes.concat chunks).size ∧
          buffer'.size = (Bytes.concat chunks).size)
      (turn url fileId body buffer) t a := by
  obtain ⟨sent, hfollows, htransmits⟩ := h
  refine Program.Returns.unlessCancelled (fun _ => id) (nextChunk_returns hR) ?_
  rintro _ t₁ a₁ ⟨rfl, hcalls, hchunks, hconfig⟩
  rw [← hcalls] at htransmits
  cases hnext : chunks[chunksTaken t]? with
  | some data =>
    have hlt := (List.getElem?_eq_some_iff.1 hnext).1
    refine Program.Returns.bind (sendParts_returns hR (hconfig ▸ hpolicy) htransmits) ?_
    rintro _ t₂ a₂ ⟨rfl, htransmits₂, hchunks₂, hconfig₂⟩
    refine .done fun b hb => ⟨⟨sent ++ (buffer.write data).1, ?_, ?_⟩, hlt, hchunks₂.trans hchunks,
      (hR _ _ hb).trans (hconfig₂.trans hconfig)⟩
    · rw [hchunks₂, hchunks, List.take_add_one, hnext, Option.toList_some, Bytes.concat_append,
        Bytes.concat_cons, Bytes.concat_nil, ByteArray.append_empty]
      exact hfollows.write data
    · rwa [List.map_append]
  | none =>
    have hall : chunks.take (chunksTaken t) = chunks :=
      List.take_of_length_le (List.getElem?_eq_none_iff.1 hnext)
    rw [hall] at hfollows
    obtain ⟨hbytes, hindex, hnumber, hsize⟩ := hfollows.finish hpos
    refine Program.Returns.bind (sendParts_returns hR (hconfig ▸ hpolicy) htransmits) ?_
    rintro _ t₂ a₂ ⟨rfl, htransmits₂, -, -⟩
    rw [← List.map_append] at htransmits₂
    rw [← length_parts] at hindex hcount
    exact .done fun b _ => ⟨_, rfl, ⟨_, htransmits₂, map_part? hbytes hindex hcount⟩, hnumber, hsize⟩

/-- The loop sends the whole body. -/
theorem turns_return {policy : RetryPolicy} {chunks : List ByteArray} {bound : Nat} {url : String}
    {fileId : Int64} {body : Nat} {partSize : Nat} {length : Option Nat} {t : List Event} {a : Account}
    (hR : ∀ a b, R.may a b → b.config = a.config) (hpolicy : a.config.retryPolicy = policy)
    (hpos : 0 < partSize)
    (hcount : partCount partSize (Bytes.concat chunks).size ≤ Int32.maxValue.toNatClampNeg)
    (hcalls : calls t = []) (hchunks : chunksTaken t = 0) :
    Program.Returns R (accepting policy chunks bound)
      (fun r t' _ => ∃ buffer', r = .ok buffer' ∧ Sent partSize (Bytes.concat chunks) t' ∧
        buffer'.next = partCount partSize (Bytes.concat chunks).size ∧
        buffer'.size = (Bytes.concat chunks).size)
      (Program.iterate (PartBuffer.start partSize length) (turn url fileId body)) t a := by
  refine Program.Returns.iterate (fun n buffer t' b => Sends fileId partSize chunks buffer t' ∧
    n = chunks.length - chunksTaken t' ∧ b.config = a.config) ?_ ⟨⟨[], ?_, ?_⟩, rfl, rfl⟩
  · rintro n buffer t₁ a₁ ⟨hsends, rfl, hconfig⟩
    refine (turn_returns hR (hconfig ▸ hpolicy) hpos hcount hsends).mono ?_
    rintro (buffer' | r) t₂ a₂ hr
    · obtain ⟨hsends₂, hlt, htaken, hconfig₂⟩ := hr
      exact ⟨_, by omega, hsends₂, rfl, hconfig₂.trans hconfig⟩
    · exact hr
  · rw [hchunks]
    exact start_follows partSize length
  · rw [hcalls]
    exact .nil

/-! ## The whole upload -/

theorem fetch_returns [Url.DomainMapping] {policy : RetryPolicy} {chunks : List ByteArray} {bound : Nat}
    {text : String} {url : Url} {t : List Event} {a : Account}
    (hR : ∀ a b, R.may a b → b.config = a.config) (hurl : Url.ofString? text = some url) (hweb : url.isWeb) :
    Program.Returns R (accepting policy chunks bound)
      (fun r t' b => (∃ response, r = .ok response) ∧ calls t' = calls t ∧
        chunksTaken t' = chunksTaken t ∧ b.config = a.config) (fetch text) t a := by
  simp only [fetch, hurl, hweb, if_true]
  refine Program.Returns.external ⟨.ok default, default, rfl, by decide, .inl rfl⟩ ?_
  rintro _ a₁ ha₁ ⟨response, rfl, hstatus, _⟩
  simp only [Nat.not_le.2 hstatus, if_false]
  refine .done fun b hb => ⟨⟨response, rfl⟩, ?_, ?_, (hR _ _ hb).trans (hR _ _ ha₁)⟩
  · simp [calls, call?.eq_def]
  · simp [chunksTaken]

/-- The number of parts of a file. -/
def partsOf : InputFile → Int32
  | .small _ parts _ _ => parts
  | .big _ parts _ => parts

theorem partsOf_inputFile (b : PartBuffer) (id : Int64) (name : String) :
    partsOf (b.inputFile id name) = Int32.ofNat b.next := by
  unfold PartBuffer.inputFile
  split <;> rfl

/-- When every part is accepted, an upload sends the parts of the body, numbered from zero, in order,
however the body was cut into chunks and whether or not its length was announced; the file has as many
parts as were sent, and the size of the body. When a part fails for good, whatever else happens, nothing
is sent after it and no file is returned. Wherever the body has an end and the server relents, the upload
comes to its end, and if a part has failed its answer is an error. -/
theorem fromWeb_sends_parts [Url.DomainMapping] [Mime.Associations] {R : Others} (file : Envelope.File)
    (a : Account) (hR : ∀ a b, R.may a b → b.config = a.config) :
    (∀ url chunks bound, Url.ofString? file.url = some url → url.isWeb →
      partCount a.config.partSize (Bytes.concat chunks).size ≤ Int32.maxValue.toNatClampNeg →
      Program.Returns R (accepting a.config.retryPolicy chunks bound)
        (fun r t _ => Sent a.config.partSize (Bytes.concat chunks) t ∧
          ∃ media, r = .ok media ∧ media.size = (Bytes.concat chunks).size ∧
            (partsOf media.file).toInt = partCount a.config.partSize (Bytes.concat chunks).size)
        (fromWeb file) [] a) ∧
    (∀ q b t₁ e t₂, Program.Run R (fromWeb file) a (t₁ ++ e :: t₂) q b →
      Failure a.config.retryPolicy t₁ e →
        calls t₂ = [] ∧ ∀ r, q = .done r → ∃ err, r = .error err) ∧
    ∀ count bound, Program.Returns R (ending a.config.retryPolicy count bound)
      (fun r t _ => ∀ t₁ e t₂, t = t₁ ++ e :: t₂ → Failure a.config.retryPolicy t₁ e →
        calls t₂ = [] ∧ ∃ err, r = .error err) (fromWeb file) [] a := by
  refine ⟨fun url chunks bound hurl hweb hcount => ?_, fun q b t₁ e t₂ hrun he =>
    fromWeb_stops hR hrun he, fun count bound => fromWeb_fails hR⟩
  have hpos : 0 < a.config.partSize := Nat.lt_of_lt_of_le Nat.one_pos (Nat.le_max_right _ _)
  refine Program.Returns.unlessCancelled (fun _ => id) (fetch_returns hR hurl hweb) ?_
  rintro _ t₁ a₁ ⟨⟨response, rfl⟩, hcalls, hchunks, hconfig⟩
  refine Program.Returns.read fun a₂ ha₂ => ?_
  have hconfig₂ := (hR _ _ ha₂).trans hconfig
  rw [hconfig₂]
  refine Program.Returns.external ⟨0, trivial⟩ fun fileId a₃ ha₃ _ => ?_
  have hconfig₃ := (hR _ _ ha₃).trans hconfig₂
  refine Program.Returns.bind (turns_return hR (by rw [hconfig₃]) hpos hcount ?_ ?_) ?_
  · simpa [calls, call?.eq_def] using hcalls
  · simpa [chunksTaken] using hchunks
  · rintro _ t₄ a₄ ⟨buffer, rfl, hsent, hnext, hsize⟩
    refine .done fun b _ => ⟨hsent, _, rfl, hsize, ?_⟩
    rw [partsOf_inputFile, hnext, Int32.toInt_ofNat_of_lt (Nat.lt_succ_of_le hcount)]

/-- Three bytes in parts of two, after an empty chunk. -/
theorem fromWeb_sends_parts_three_bytes :
    let a : Account := { config := { chunkSize := 2 }, profile := 0 }
    let file : Envelope.File := { url := "http://a/" }
    let chunks := [ByteArray.empty, ⟨#[97, 98, 99]⟩]
    (∀ a b, Others.nobody.may a b → b.config = a.config) ∧
      (∃ url, Url.ofString? file.url = some url ∧ url.isWeb) ∧
      partCount a.config.partSize (Bytes.concat chunks).size ≤ Int32.maxValue.toNatClampNeg ∧
      ∃ t media b requests, Program.Run Others.nobody (fromWeb file) a t (.done (.ok media)) b ∧
        Transmits requests (calls t) ∧ media.size = 3 ∧
        requests.map part? = [some (0, ⟨#[97, 98]⟩), some (1, ⟨#[99]⟩)] := by
  intro a file chunks
  have hR : ∀ a b, Others.nobody.may a b → b.config = a.config := fun _ _ h => congrArg _ h
  have hcount : partCount a.config.partSize (Bytes.concat chunks).size ≤
      Int32.maxValue.toNatClampNeg := by decide
  obtain ⟨url, hurl, hweb⟩ : ∃ url, Url.ofString? file.url = some url ∧ url.isWeb := by
    decide +kernel
  refine ⟨hR, ⟨url, hurl, hweb⟩, hcount, ?_⟩
  have h := (fromWeb_sends_parts file a hR).1 url chunks 0 hurl hweb hcount
  obtain ⟨t, r, b, hrun, henv⟩ := h.exists_run
  obtain ⟨⟨requests, htransmits, hparts⟩, media, rfl, hsize, -⟩ := h.of_run hrun henv
  exact ⟨t, media, b, requests, hrun, htransmits, hsize, hparts.trans (by decide)⟩

end Telebridge.Upload
