import Telebridge.Proofs.Call.Persistence
import Telebridge.Proofs.Media.PartKind
import Telebridge.Proofs.Program.Turns
import Telebridge.Proofs.Transfer.Upload
set_option autoImplicit false

/-! # The calls of an upload

Whatever the server answers, and whoever cancels the upload, all its calls send parts of one file under
one id: `Upload.requests` says which. The buffer decides how a part is sent while the body is still on
its way, so the loop is followed with what the buffer would let go of the chunks that are yet to come
(`Uploading`). -/

namespace Telebridge.Upload

open Program Pipeline PartBuffer

variable {R : Others} {length : Option Nat} {n : Nat} {body : ByteArray} {chunks : List ByteArray}
  {fileId : Int64}

/-! ## The requests -/

/-- The request for part `i` of `count` parts of a body of some size. The parts of a big file tell how
many there are; if its length is not announced, only the last one does. -/
def requestAt (announced : Bool) (fileId : Int64) (size count i : Nat) (bytes : ByteArray) : Request :=
  if bigFileThreshold ≤ size then
    .saveBigFilePart fileId (Int32.ofNat i)
      (if announced || i + 1 = count then Int32.ofNat count else -1) bytes
  else .saveFilePart fileId (Int32.ofNat i) bytes

/-- The requests for all parts of a body. -/
def requests (announced : Bool) (fileId : Int64) (n : Nat) (body : ByteArray) : List Request :=
  (parts n body).mapIdx (requestAt announced fileId body.size (parts n body).length)

/-- The file that the parts of a body make up. -/
def fileOf (fileId : Int64) (n : Nat) (body : ByteArray) (name : String) : InputFile :=
  if bigFileThreshold ≤ body.size then .big fileId (Int32.ofNat (parts n body).length) name
  else .small fileId (Int32.ofNat (parts n body).length) name ""

theorem partRequest_kindAt (announced : Bool) (fileId : Int64) (size count i : Nat)
    (bytes : ByteArray) :
    partRequest fileId ⟨Int32.ofNat i, kindAt announced size count i, bytes⟩ =
      requestAt announced fileId size count i bytes := by
  simp only [partRequest, kindAt, lastKind, earlierKind, requestAt]
  by_cases hsize : bigFileThreshold ≤ size
  · simp only [Nat.not_lt.2 hsize, hsize, if_true, if_false]
    by_cases hlast : i + 1 = count
    · simp [hlast]
    · cases announced <;> simp [hlast]
  · simp only [Nat.lt_of_not_le hsize, hsize, if_true, if_false, ite_self]

/-- What has to be sent is asked for. -/
theorem map_plan (announced : Bool) (fileId : Int64) (n : Nat) (body : ByteArray) :
    (plan announced n body).map (partRequest fileId) = requests announced fileId n body := by
  refine List.ext_getElem (by simp [plan, requests]) fun i _ _ => ?_
  simp only [plan, requests, List.getElem_map, List.getElem_mapIdx, partRequest_kindAt, length_parts]

/-! ## Surroundings that deliver a body -/

/-- The surroundings in which a body arrives in some chunks, with its length announced as it is or not.
The calls may be answered in any way, the body may break off, and the upload may be cancelled. -/
def delivering (chunks : List ByteArray) (length : Option Nat) : Environment := fun t e =>
  match e with
  | .answered (.fetch _) answer => ∀ response, answer = .ok response → response.length = length
  | .answered (.nextChunk _) answer => ∀ piece, answer = .ok piece → piece = chunks[chunksTaken t]?
  | _ => True

/-- The body has come to its end. -/
def BodyEnded (t : List Event) : Prop :=
  ∃ source, .answered (.nextChunk source) (.ok none) ∈ t

/-- The random id that was drawn first. -/
def drawnId? (t : List Event) : Option Int64 :=
  t.findSome? fun
    | .answered .randomId id => some id
    | _ => none

/-- A request may be made after a history: it is for a part of the body, under the id that was drawn;
and where nothing but the end of the body tells that the file is small, the body has ended. -/
structure Permits (length : Option Nat) (n : Nat) (body : ByteArray) (t : List Event)
    (request : Request) : Prop where
  part : ∃ fileId, drawnId? t = some fileId ∧ request ∈ requests length.isSome fileId n body
  ended : length = none → body.size < bigFileThreshold → BodyEnded t

/-- Only permitted requests are made. -/
def permitting (length : Option Nat) (n : Nat) (body : ByteArray) : Environment := fun t e =>
  ∀ c, call? e = some c → Permits length n body t c.1

theorem drawnId?_append {t : List Event} (h : drawnId? t = some fileId) (u : List Event) :
    drawnId? (t ++ u) = some fileId := by
  rw [drawnId?, List.findSome?_append, ← drawnId?, h]
  rfl

/-- What is permitted stays so. -/
theorem Permits.append {t : List Event} {request : Request} (h : Permits length n body t request)
    (u : List Event) : Permits length n body (t ++ u) request where
  part := by
    obtain ⟨fileId, hid, hmem⟩ := h.part
    exact ⟨fileId, drawnId?_append hid u, hmem⟩
  ended hl hs := by
    obtain ⟨source, hmem⟩ := h.ended hl hs
    exact ⟨source, List.mem_append_left u hmem⟩

/-! ## Sending parts -/

theorem chunksTaken_attempting {request : Request} {es : List Event}
    (h : ∀ e ∈ es, Attempting request e) : chunksTaken es = 0 := by
  refine List.countP_eq_zero.2 fun e he => ?_
  cases h e he <;> simp

theorem callPersistently_permitted {env : Environment} {request : Request} {sent : List Request}
    {t : List Event} {a : Account} (hR : ∀ a b, R.may a b → b.config = a.config)
    (hpermits : Permits length n body t request) (h : Transmits sent (calls t)) :
    Safe R env (permitting length n body)
      (fun r t' _ => (∃ es, t' = t ++ es ∧ chunksTaken es = 0) ∧
        ∀ v, r = .ok v → Transmits (sent ++ [request]) (calls t'))
      (callPersistently request) t a := by
  refine Safe.read fun a₁ _ => Safe.of_runs hR (conforms_callWithRetry hR) ?_ ?_
  · intro es e _ he c hc
    rw [he.request_eq hc]
    exact hpermits.append es
  · rintro es r b hrun _ _ hes
    refine ⟨⟨es, rfl, chunksTaken_attempting hes⟩, ?_⟩
    rintro v rfl
    rw [calls_append]
    exact h.persists (persists_of_run hrun)

theorem sendParts_permitted {env : Environment} {ps : List FilePart} {sent : List Request}
    {t : List Event} {a : Account} (hR : ∀ a b, R.may a b → b.config = a.config)
    (hpermits : ∀ p ∈ ps, Permits length n body t (partRequest fileId p))
    (h : Transmits sent (calls t)) :
    Safe R env (permitting length n body)
      (fun r t' _ => (∃ es, t' = t ++ es ∧ chunksTaken es = 0) ∧
        (r = .ok () → Transmits (sent ++ ps.map (partRequest fileId)) (calls t')))
      (sendParts fileId ps) t a := by
  induction ps generalizing sent t a with
  | nil =>
    refine Safe.done fun _ _ => ⟨⟨[], (List.append_nil t).symm, rfl⟩, fun _ => ?_⟩
    rwa [List.map_nil, List.append_nil]
  | cons p rest ih =>
    refine Safe.bind (callPersistently_permitted hR (hpermits p (by simp)) h) ?_
    rintro r _ a₁ ⟨⟨es, rfl, htaken⟩, hr⟩
    cases r with
    | error e => exact Safe.done fun _ _ => ⟨⟨es, rfl, htaken⟩, fun h => by cases h⟩
    | ok v =>
      refine (ih (fun q hq => (hpermits q (by simp [hq])).append es) (hr v rfl)).mono ?_
      rintro r' _ _ ⟨⟨fs, rfl, htaken'⟩, hr'⟩
      refine ⟨⟨es ++ fs, List.append_assoc .., ?_⟩, fun h' => ?_⟩
      · rw [chunksTaken_append, htaken, htaken']
      · rw [List.map_cons, ← List.singleton_append, ← List.append_assoc]
        exact hr' h'

/-! ## The loop -/

/-- Between two turns: the parts that have been transmitted and those that the buffer would let go of
the chunks that are yet to come make up what a buffer lets go of all chunks. -/
structure Uploading (length : Option Nat) (n : Nat) (chunks : List ByteArray) (fileId : Int64)
    (buffer : PartBuffer) (t : List Event) : Prop where
  id : drawnId? t = some fileId
  parts : ∃ sent, Transmits (sent.map (partRequest fileId)) (calls t) ∧
    sent ++ (buffer.writeAll (chunks.drop (chunksTaken t))).1 =
      ((start n length).writeAll chunks).1 ∧
    (buffer.writeAll (chunks.drop (chunksTaken t))).2 = ((start n length).writeAll chunks).2

/-- After the last turn: everything has been transmitted. -/
def Uploaded (length : Option Nat) (n : Nat) (body : ByteArray) (fileId : Int64)
    (r : Except TransferError PartBuffer) (t : List Event) : Prop :=
  ∀ buffer, r = .ok buffer → drawnId? t = some fileId ∧
    Transmits (requests length.isSome fileId n body) (calls t) ∧
    ∀ name, buffer.inputFile fileId name = fileOf fileId n body name

/-- The next piece is the next chunk. -/
theorem nextChunk_permitted {source : Nat} {t : List Event} {a : Account}
    (hR : ∀ a b, R.may a b → b.config = a.config) :
    Safe R (delivering chunks length) (permitting length n body)
      (fun r t' _ => ∃ es, t' = t ++ es ∧ calls es = [] ∧ ∀ piece, r = some (.ok piece) →
        piece = chunks[chunksTaken t]? ∧ chunksTaken es = 1 ∧
        .answered (.nextChunk source) (.ok piece) ∈ es)
      (unlessCancelled (external (.nextChunk source))) t a := by
  have hconforms : (unlessCancelled (external (.nextChunk source))).Conforms R .sameConfig
      (fun _ => True) (fun e => call? e = none) :=
    conforms_unlessCancelled (conforms_external fun _ _ => rfl) rfl
  refine Safe.of_runs hR hconforms ?_ ?_
  · intro es e _ he c hc
    rw [he] at hc
    cases hc
  · rintro es r b hrun henv _ hes
    refine ⟨es, rfl, List.filterMap_eq_nil_iff.2 hes, ?_⟩
    rintro piece rfl
    obtain ⟨u, v, rfl, hcancelled⟩ := hrun.unlessCancelled_external
    rw [List.forall_mem_append] at hcancelled
    have hnone {w : List Event} (hw : ∀ e ∈ w, e = .cancelled) : chunksTaken w = 0 := by
      refine List.countP_eq_zero.2 fun e he => ?_
      rw [hw e he]
      simp
    have hpiece : piece = chunks[chunksTaken (t ++ u)]? := henv.at piece rfl
    rw [chunksTaken_append, hnone hcancelled.1, Nat.add_zero] at hpiece
    refine ⟨hpiece, ?_, by simp⟩
    rw [chunksTaken_append, hnone hcancelled.1, Nat.zero_add]
    rw [chunksTaken, List.countP_cons_of_pos rfl]
    exact congrArg Nat.succ (hnone hcancelled.2)

/-- At the end of the body all that is left of the requests is made. -/
theorem Uploading.last {buffer : PartBuffer} {t : List Event} (hn : 0 < n)
    (hbody : Bytes.concat chunks = body) (hlength : length = none ∨ length = some body.size)
    (h : Uploading length n chunks fileId buffer t) (hnone : chunks[chunksTaken t]? = none) :
    ∃ sent, Transmits (sent.map (partRequest fileId)) (calls t) ∧
      (sent ++ buffer.finish.1).map (partRequest fileId) =
        requests length.isSome fileId n body ∧
      ∀ name, buffer.finish.2.inputFile fileId name = fileOf fileId n body name := by
  obtain ⟨-, sent, htransmits, hearly, hfinal⟩ := h
  obtain ⟨hplan, -, -, hfile⟩ := writeAll_finish hn hbody hlength
  rw [List.drop_eq_nil_of_le (List.getElem?_eq_none_iff.1 hnone)] at hearly hfinal
  have hearly : sent = ((start n length).writeAll chunks).1 := by simpa [writeAll] using hearly
  have hfinal : buffer = ((start n length).writeAll chunks).2 := hfinal
  refine ⟨sent, htransmits, ?_, fun name => ?_⟩
  · rw [hearly, hfinal, hplan, map_plan]
  · rw [hfinal, hfile, fileOf, length_parts]

/-- The next chunk makes some parts ready, though none of a small file whose length was not announced;
when they have been transmitted the upload is between two turns again. -/
theorem Uploading.next {buffer : PartBuffer} {t : List Event} {data : ByteArray} (hn : 0 < n)
    (hbody : Bytes.concat chunks = body) (hlength : length = none ∨ length = some body.size)
    (h : Uploading length n chunks fileId buffer t) (hsome : chunks[chunksTaken t]? = some data) :
    ∃ sent, Transmits (sent.map (partRequest fileId)) (calls t) ∧
      (∀ p ∈ (buffer.write data).1, partRequest fileId p ∈ requests length.isSome fileId n body ∧
        (length = none → ¬ body.size < bigFileThreshold)) ∧
      ∀ t', drawnId? t' = some fileId → chunksTaken t' = chunksTaken t + 1 →
        Transmits ((sent ++ (buffer.write data).1).map (partRequest fileId)) (calls t') →
          Uploading length n chunks fileId (buffer.write data).2 t' := by
  obtain ⟨-, sent, htransmits, hearly, hfinal⟩ := h
  obtain ⟨hplan, hheld, -, -⟩ := writeAll_finish hn hbody hlength
  obtain ⟨hlt, hdata⟩ := List.getElem?_eq_some_iff.1 hsome
  rw [List.drop_eq_getElem_cons hlt, hdata, writeAll, ← List.append_assoc] at hearly
  rw [List.drop_eq_getElem_cons hlt, hdata, writeAll] at hfinal
  refine ⟨sent, htransmits, fun p hp => ?_, fun t' hid htaken ht' => ?_⟩
  · have hgoes : p ∈ ((start n length).writeAll chunks).1 := by
      rw [← hearly]
      exact List.mem_append_left _ (List.mem_append_right _ hp)
    refine ⟨?_, fun hl hs => ?_⟩
    · rw [← map_plan, ← hplan]
      exact List.mem_map_of_mem (List.mem_append_left _ hgoes)
    · rw [hheld hl hs] at hgoes
      cases hgoes
  · exact ⟨hid, _, ht', by rw [htaken]; exact hearly, by rw [htaken]; exact hfinal⟩

/-- A turn makes permitted requests only. -/
theorem turn_permitted {url : String} {source : Nat} {buffer : PartBuffer} {t : List Event}
    {a : Account} (hR : ∀ a b, R.may a b → b.config = a.config) (hn : 0 < n)
    (hbody : Bytes.concat chunks = body) (hlength : length = none ∨ length = some body.size)
    (h : Uploading length n chunks fileId buffer t) :
    Safe R (delivering chunks length) (permitting length n body)
      (EndOfTurn (fun buffer' t' _ => Uploading length n chunks fileId buffer' t')
        fun r t' _ => Uploaded length n body fileId r t')
      (turn url fileId source buffer) t a := by
  have herror (e : TransferError) (t' : List Event) : Uploaded length n body fileId (.error e) t' := by
    intro buffer' h
    cases h
  refine Safe.bind (nextChunk_permitted hR) ?_
  rintro r _ a₁ ⟨es, rfl, hcalls, hr⟩
  have hid (u : List Event) : drawnId? (t ++ es ++ u) = some fileId := by
    rw [List.append_assoc]
    exact drawnId?_append h.id _
  have hquiet {sent : List Request} (h : Transmits sent (calls t)) :
      Transmits sent (calls (t ++ es)) := by
    rwa [calls_append, hcalls, List.append_nil]
  rcases r with _ | e | _ | data
  · exact Safe.done fun _ _ => herror _ _
  · exact Safe.done fun _ _ => herror _ _
  · -- the body has ended
    obtain ⟨hpiece, -, hmem⟩ := hr none rfl
    obtain ⟨sent, htransmits, hall, hfile⟩ := h.last hn hbody hlength hpiece.symm
    refine Safe.bind (sendParts_permitted hR (fun p hp => ⟨⟨fileId, ?_, ?_⟩, fun _ _ => ?_⟩)
      (hquiet htransmits)) ?_
    · exact drawnId?_append h.id es
    · rw [← hall]
      exact List.mem_map_of_mem (List.mem_append_right _ hp)
    · exact ⟨source, List.mem_append_right t hmem⟩
    · rintro r' _ a₂ ⟨⟨fs, rfl, -⟩, hr'⟩
      cases r' with
      | error e => exact Safe.done fun _ _ => herror _ _
      | ok _ =>
        refine Safe.done fun _ _ buffer' hbuffer => ?_
        cases hbuffer
        refine ⟨hid fs, ?_, hfile⟩
        rw [← hall, List.map_append]
        exact hr' rfl
  · -- a chunk has arrived
    obtain ⟨hpiece, htaken, -⟩ := hr (some data) rfl
    obtain ⟨sent, htransmits, hready, hnext⟩ := h.next hn hbody hlength hpiece.symm
    refine Safe.bind (sendParts_permitted hR (fun p hp => ⟨⟨fileId, ?_, (hready p hp).1⟩,
      fun hl hs => absurd hs ((hready p hp).2 hl)⟩) (hquiet htransmits)) ?_
    · exact drawnId?_append h.id es
    · rintro r' _ a₂ ⟨⟨fs, rfl, htaken'⟩, hr'⟩
      cases r' with
      | error e => exact Safe.done fun _ _ => herror _ _
      | ok _ =>
        refine Safe.done fun _ _ => hnext _ (hid fs) ?_ ?_
        · rw [chunksTaken_append, chunksTaken_append, htaken, htaken']
        · rw [List.map_append]
          exact hr' rfl

/-! ## The whole upload -/

/-- The event can come before the body. -/
inductive Fetching : Event → Prop
  | answered (url : Url) (answer : Except FetchError WebResponse) :
      Fetching (.answered (.fetch url) answer)
  | cancelled : Fetching .cancelled

/-- What is fetched was answered by the web server. -/
theorem fetch_answered [Url.DomainMapping] {text : String} {response : WebResponse} {t : List Event}
    {a b : Account} (h : Run R (fetch text) a t (.done (.ok response)) b) :
    ∃ url, .answered (.fetch url) (.ok response) ∈ t := by
  unfold fetch at h
  split at h
  · cases h.done_inv.2.1
  · split at h
    · obtain ⟨answer, t₁, t₂, a₁, rfl, hanswer, hrest⟩ := h.bind_done
      obtain ⟨rfl, -⟩ := hanswer.external_done
      cases answer with
      | error e => cases hrest.done_inv.2.1
      | ok response' =>
        simp only at hrest
        split at hrest
        · cases hrest.done_inv.2.1
        · cases hrest.done_inv.2.1
          exact ⟨_, List.mem_append_left _ List.mem_cons_self⟩
    · cases h.done_inv.2.1

/-- The first part of an upload makes no requests. -/
theorem fetch_permitted [Url.DomainMapping] {text : String} {a : Account}
    (hR : ∀ a b, R.may a b → b.config = a.config) :
    Safe R (delivering chunks length) (permitting length n body)
      (fun r t' b => b.config = a.config ∧ calls t' = [] ∧ chunksTaken t' = 0 ∧ drawnId? t' = none ∧
        ∀ response, r = some (.ok response) → response.length = length)
      (unlessCancelled (fetch text)) [] a := by
  have hconforms : (unlessCancelled (fetch text)).Conforms R .sameConfig (fun _ => True) Fetching :=
    conforms_unlessCancelled (conforms_fetch text .answered) .cancelled
  refine Safe.of_runs hR hconforms ?_ ?_
  · intro es e _ he c hc
    cases he <;> cases hc
  · rintro es r b hrun henv hconfig hes
    refine ⟨hconfig, ?_, ?_, ?_, ?_⟩
    · refine List.filterMap_eq_nil_iff.2 fun e he => ?_
      cases hes e he <;> rfl
    · refine List.countP_eq_zero.2 fun e he => ?_
      cases hes e he <;> simp
    · refine List.findSome?_eq_none_iff.2 fun e he => ?_
      cases hes e he <;> rfl
    · rintro response rfl
      obtain ⟨w, hw, hshows⟩ := hrun.unlessCancelled_shows
      obtain ⟨url, hanswered⟩ := fetch_answered hw
      have hmem : .answered (.fetch url) (.ok response) ∈ w.filter fun e => !e.isCancelled :=
        List.mem_filter.2 ⟨hanswered, rfl⟩
      rw [← hshows] at hmem
      obtain ⟨u, v, rfl⟩ := List.append_of_mem (List.mem_filter.1 hmem).1
      exact henv.at response rfl

/-- An upload makes permitted requests only; if it succeeds, it has made all of them. -/
theorem fromWeb_permitted [Url.DomainMapping] [Mime.Associations] {file : Envelope.File} {a : Account}
    (hR : ∀ a b, R.may a b → b.config = a.config) (hbody : Bytes.concat chunks = body)
    (hlength : length = none ∨ length = some body.size) :
    Safe R (delivering chunks length) (permitting length a.config.partSize body)
      (fun r t _ => ∀ media, r = .ok media → ∃ fileId, drawnId? t = some fileId ∧
        Transmits (requests length.isSome fileId a.config.partSize body) (calls t) ∧
        media.file = fileOf fileId a.config.partSize body media.name)
      (fromWeb file) [] a := by
  have hpos : 0 < a.config.partSize := Nat.lt_of_lt_of_le Nat.one_pos (Nat.le_max_right _ _)
  refine Safe.bind (fetch_permitted hR) ?_
  rintro r t₁ a₁ ⟨hconfig, hcalls, htaken, hid, hr⟩
  rcases r with _ | e | response
  · exact Safe.done fun _ _ _ h => by cases h
  · exact Safe.done fun _ _ _ h => by cases h
  · obtain rfl := hr response rfl
    refine Safe.read fun a₂ ha₂ => ?_
    rw [(hR _ _ ha₂).trans hconfig]
    refine Safe.external fun fileId a₃ _ _ => ⟨fun _ hc => (by cases hc), ?_⟩
    have hstart : Uploading response.length a.config.partSize chunks fileId
        (start a.config.partSize response.length) (t₁ ++ [.answered .randomId fileId]) := by
      refine ⟨?_, [], ?_, ?_⟩
      · rw [drawnId?, List.findSome?_append, ← drawnId?, hid]
        rfl
      · rw [calls_append, hcalls]
        exact .nil
      · rw [chunksTaken_append, htaken]
        exact ⟨rfl, rfl⟩
    refine Safe.bind (Safe.iterate (fun buffer t _ => Uploading _ _ chunks fileId buffer t)
      (fun _ _ _ h => turn_permitted hR hpos hbody hlength h) hstart) fun r t₄ a₄ h₄ => ?_
    cases r with
    | error e => exact Safe.done fun _ _ _ h => by cases h
    | ok buffer =>
      obtain ⟨hid₄, htransmits, hfile⟩ := h₄ buffer rfl
      refine Safe.done fun _ _ media hmedia => ⟨fileId, hid₄, htransmits, ?_⟩
      cases hmedia
      exact hfile _

/-! ## Uploads that succeed -/

/-- A call that is answered with yes. -/
def accepted (request : Request) : Event :=
  .answered (.call request) (.ok ⟨.bool, true⟩)

theorem chunksTaken_accepted (rs : List Request) : chunksTaken (rs.map accepted) = 0 := by
  refine List.countP_eq_zero.2 fun e he => ?_
  obtain ⟨request, -, rfl⟩ := List.mem_map.1 he
  simp [accepted]

theorem delivering_accepted (t : List Event) (rs : List Request) :
    (delivering chunks length).Allows t (rs.map accepted) := by
  refine Environment.allows_of_forall_mem fun e he _ => ?_
  obtain ⟨request, -, rfl⟩ := List.mem_map.1 he
  trivial

theorem callPersistently_accepted {request : Request} (a : Account)
    (hreq : request.expected = .bool) :
    ∃ v b, Run R (callPersistently request) a [accepted request] (.done (.ok v)) b := by
  obtain ⟨v, hv⟩ := outcome_of_expected (b := true) hreq
  have hcall : Run R (call request) a [accepted request] (.done (.ok v))
      (learn request (.ok ⟨.bool, true⟩) a) := hv ▸ Run.of_call a rfl
  have hattempt : Run R (attempt a.config.retryPolicy request 1) a [accepted request]
      (.done (.inr (.ok v))) (learn request (.ok ⟨.bool, true⟩) a) := hcall.bind (.refl _ _)
  exact ⟨v, _, (Run.of_await rfl).bind hattempt.iterate_done⟩

/-- Parts may all be accepted. -/
theorem sendParts_accepted (fileId : Int64) (ps : List FilePart) (a : Account) :
    ∃ b, Run R (sendParts fileId ps) a ((ps.map (partRequest fileId)).map accepted)
      (.done (.ok ())) b := by
  induction ps generalizing a with
  | nil => exact ⟨a, .refl _ a⟩
  | cons p rest ih =>
    obtain ⟨v, a₁, hcall⟩ := callPersistently_accepted (R := R) a (expected_partRequest fileId p)
    obtain ⟨b, hrest⟩ := ih a₁
    exact ⟨b, hcall.bind hrest⟩

/-- The rest of a body may be sent. -/
theorem turns_succeed (length : Option Nat) (url : String) (fileId : Int64) (source : Nat)
    {rest : List ByteArray} {t : List Event} (buffer : PartBuffer) (a : Account)
    (h : chunks.drop (chunksTaken t) = rest) :
    ∃ es buffer' b, (delivering chunks length).Allows t es ∧
      Run R (iterate buffer (turn url fileId source)) a es (.done (.ok buffer')) b := by
  induction rest generalizing buffer t a with
  | nil =>
    have hnone : none = chunks[chunksTaken t]? := by
      rw [List.getElem?_eq_none (List.drop_eq_nil_iff.1 h)]
    obtain ⟨b, hsend⟩ := sendParts_accepted (R := R) fileId buffer.finish.1 a
    have hchunk := (Run.of_external (R := R) (.nextChunk source) (Except.ok none) a).of_unlessCancelled
    refine ⟨_, buffer.finish.2, b, ?_, (hchunk.bind (hsend.bind (.refl _ _))).iterate_done⟩
    rw [List.append_nil]
    refine ⟨?_, delivering_accepted _ _⟩
    rintro _ ⟨⟩
    exact hnone
  | cons data rest ih =>
    have hlt : chunksTaken t < chunks.length := by
      have hlength := congrArg List.length h
      rw [List.length_drop, List.length_cons] at hlength
      omega
    rw [List.drop_eq_getElem_cons hlt] at h
    obtain ⟨hdata, hrest⟩ := List.cons.inj h
    obtain ⟨b, hsend⟩ := sendParts_accepted (R := R) fileId (buffer.write data).1 a
    have hchunk := (Run.of_external (R := R) (.nextChunk source)
      (Except.ok (some data)) a).of_unlessCancelled
    -- what a turn shows, and how many chunks have been taken then
    let shown := [.answered (.nextChunk source) (Except.ok (some data))] ++
      (((buffer.write data).1.map (partRequest fileId)).map accepted ++ [])
    have hturn : Run R (turn url fileId source buffer) a shown
        (.done (.inl (buffer.write data).2)) b := hchunk.bind (hsend.bind (.refl _ _))
    have htaken : chunksTaken (t ++ shown) = chunksTaken t + 1 := by
      rw [chunksTaken_append, chunksTaken_append, List.append_nil, chunksTaken_accepted]
      rfl
    have hrest : chunks.drop (chunksTaken (t ++ shown)) = rest := by rw [htaken, hrest]
    obtain ⟨es, buffer', b', henv, hrun⟩ := ih (buffer.write data).2 b hrest
    refine ⟨shown ++ es, buffer', b', ?_, hturn.iterate_turn hrun⟩
    refine (Environment.allows_append ..).2 ⟨⟨?_, ?_⟩, henv⟩
    · rintro _ ⟨⟩
      rw [List.getElem?_eq_getElem hlt, hdata]
    · rw [List.append_nil]
      exact delivering_accepted _ _

/-- Every body may be uploaded, its length announced or not. -/
theorem fromWeb_succeeds [Url.DomainMapping] [Mime.Associations] {file : Envelope.File} {url : Url}
    (a : Account) (chunks : List ByteArray) (length : Option Nat) (hurl : Url.ofString? file.url = some url) (hweb : url.isWeb) :
    ∃ t media b, (delivering chunks length).Allows [] t ∧
      Run R (fromWeb file) a t (.done (.ok media)) b := by
  let response : WebResponse := ⟨url, 200, none, none, length, 0⟩
  have hfetch : Run R (fetch file.url) a ([.answered (.fetch url) (.ok response)] ++ [])
      (.done (.ok response)) a := by
    simp only [fetch, hurl, hweb, if_true]
    exact (Run.of_external (.fetch url) (Except.ok response) a).bind (.refl _ _)
  have hid := Run.of_external (R := R) .randomId 0 a
  have hstart : chunks.drop (chunksTaken
      [.answered (.fetch url) (.ok response), .answered .randomId (0 : Int64)]) = chunks := rfl
  obtain ⟨es, buffer, b, henv, hrun⟩ := turns_succeed (R := R) length file.url 0 0
    (PartBuffer.start a.config.partSize length) a hstart
  refine ⟨_, _, b, ?_, hfetch.of_unlessCancelled.bind ((Run.of_await rfl).bind
    (hid.bind (hrun.bind (.refl _ _))))⟩
  rw [List.append_nil, List.append_nil]
  refine ⟨?_, trivial, henv⟩
  rintro _ ⟨⟩
  rfl

/-- Every call of an upload sends a part of the body under one id, as part of a big file if and only if
the body has ten mebibytes or more: then with the number of all parts if the length was announced, and
else with that number in the last part and -1 before. Without an announced length a small file is held
back until the body has ended. A file that was uploaded is big in the same cases, and all its parts were
sent. -/
theorem fromWeb_requests [Url.DomainMapping] [Mime.Associations] {R : Others} (file : Envelope.File)
    (a : Account) (chunks : List ByteArray) (length : Option Nat) (hR : ∀ a b, R.may a b → b.config = a.config)
    (hlength : length = none ∨ length = some (Bytes.concat chunks).size)
    {q : Program (Except TransferError UploadedMedia)} {b : Account} {t : List Event}
    (hrun : Run R (fromWeb file) a t q b) (henv : (delivering chunks length).Allows [] t) :
    let body := Bytes.concat chunks
    let n := a.config.partSize
    ∃ fileId : Int64,
      (∀ c ∈ calls t, c.1 ∈ requests length.isSome fileId n body) ∧
      (length = none → body.size < bigFileThreshold →
        ∀ t₁ t₂, t = t₁ ++ t₂ → calls t₁ ≠ [] → BodyEnded t₁) ∧
      ∀ media, q = .done (.ok media) →
        Transmits (requests length.isSome fileId n body) (calls t) ∧
        media.file = fileOf fileId n body media.name := by
  intro body n
  obtain ⟨hspec, hq⟩ := fromWeb_permitted hR rfl hlength t q b hrun henv
  -- a call, and what was permitted when it was made
  have hcall {t₁ t₂ : List Event} {c : Call} (ht : t = t₁ ++ t₂) (hc : c ∈ calls t₁) :
      ∃ u, u <+: t₁ ∧ Permits length n body u c.1 := by
    obtain ⟨e, he, hec⟩ := List.mem_filterMap.1 hc
    obtain ⟨u, v, rfl⟩ := List.append_of_mem he
    rw [ht, List.append_assoc] at hspec
    exact ⟨u, List.prefix_append _ _, hspec.at c hec⟩
  have hid {fileId : Int64} {u : List Event} (hu : u <+: t) (h : drawnId? u = some fileId) :
      drawnId? t = some fileId := by
    obtain ⟨v, rfl⟩ := hu
    exact drawnId?_append h v
  refine ⟨(drawnId? t).getD 0, fun c hc => ?_, fun hl hs t₁ t₂ ht hne => ?_, fun media hmedia => ?_⟩
  · obtain ⟨u, hu, hpermits⟩ := hcall (List.append_nil t).symm hc
    obtain ⟨fileId, hdrawn, hmem⟩ := hpermits.part
    rw [hid hu hdrawn]
    exact hmem
  · obtain ⟨c, hc⟩ := List.exists_mem_of_ne_nil _ hne
    obtain ⟨u, ⟨v, rfl⟩, hpermits⟩ := hcall ht hc
    obtain ⟨source, hmem⟩ := hpermits.ended hl hs
    exact ⟨source, List.mem_append_left v hmem⟩
  · obtain ⟨fileId, hdrawn, htransmits, hfile⟩ := hq _ hmedia media rfl
    rw [List.nil_append] at hdrawn
    rw [hdrawn]
    exact ⟨htransmits, hfile⟩

/-- Ten mebibytes that arrive at once and fit into one part, their length not announced: the part is
sent as the only one of a big file. -/
theorem fromWeb_requests_ten_mebibytes :
    let a : Account := { config := { chunkSize := bigFileThreshold }, profile := 0 }
    let file : Envelope.File := { url := "http://a/" }
    ∃ body t media b, body.size = bigFileThreshold ∧
      (∀ a b, Others.nobody.may a b → b.config = a.config) ∧
      Run Others.nobody (fromWeb file) a t (.done (.ok media)) b ∧
      (delivering [body] none).Allows [] t ∧
      ∃ fileId, Transmits [.saveBigFilePart fileId 0 1 body] (calls t) ∧
        media.file = .big fileId 1 media.name := by
  intro a file
  have hR : ∀ a b, Others.nobody.may a b → b.config = a.config := fun _ _ h => congrArg _ h
  obtain ⟨url, hurl, hweb⟩ : ∃ url, Url.ofString? file.url = some url ∧ url.isWeb := by
    decide +kernel
  obtain ⟨body, hsize⟩ : ∃ body : ByteArray, body.size = bigFileThreshold :=
    ⟨⟨Array.replicate bigFileThreshold 0⟩, Array.size_replicate⟩
  obtain ⟨t, media, b, henv, hrun⟩ := fromWeb_succeeds (R := .nobody) a [body] none hurl hweb
  obtain ⟨fileId, -, -, hok⟩ := fromWeb_requests file a [body] none hR (.inl rfl) hrun henv
  obtain ⟨htransmits, hfile⟩ := hok media rfl
  -- the only part is the whole body
  have hpartSize : a.config.partSize = bigFileThreshold := by decide
  have hconcat : Bytes.concat [body] = body := ByteArray.append_empty
  have hbig : bigFileThreshold ≤ body.size := Nat.le_of_eq hsize.symm
  have hparts : parts a.config.partSize body = [body] := by
    rw [hpartSize, ← cut_eq_parts (by decide), cut_of_le (Nat.le_of_eq hsize), List.nil_append]
  rw [hconcat] at htransmits hfile
  rw [requests, hparts] at htransmits
  rw [fileOf, hparts, if_pos hbig] at hfile
  refine ⟨body, t, media, b, hsize, hR, hrun, henv, fileId, ?_, hfile⟩
  simpa [requestAt, hbig] using htransmits

end Telebridge.Upload
