import Telebridge.Proofs.Transfer.Traffic
set_option autoImplicit false

/-! # Downloads arrive as they were served

A download asks for part after part until one is shorter than asked for. The loop is followed turn by
turn with one invariant, `Download.Follows`: the offset is the number of bytes that have arrived, every
request was for what comes next, and the storage has seen just the parts. From it follows what a
complete download leaves behind, for any server that goes on giving parts and refusals to wait for
(`Serves`), and that nothing reaches the storage after a failure. -/

namespace Telebridge.Download

variable {R : Others} {location : FileLocation} {limit : Nat}

/-! ## Servers -/

/-- What a server may answer to a request for a part after earlier ones. -/
abbrev Server := List FileCall → FileQuery → Except CallError Reply → Prop

/-- The surroundings of a download from such a server: the storage accepts everything, and nothing is
cancelled. -/
def accepting (server : Server) : Environment := fun t e =>
  match e with
  | .answered (.call (.getFile query)) answer => server (fileCalls t) query answer
  | .answered (.openUpload _) answer => ∃ upload, answer = .ok upload
  | .answered (.sendFrame _ _) answer => answer = .ok ()
  | .answered (.closeUpload _) answer => ∃ stored, answer = .ok stored
  | .paused _ how => how = .elapsed
  | .cancelled => False
  | _ => True

/-- The answer that carries a part. -/
def partReply (type : FileType) (mtime : Int32) (bytes : ByteArray) : Except CallError Reply :=
  .ok ⟨.file, FileReply.part type mtime bytes⟩

/-- The answer is a part, or an error after which the request is repeated. -/
def Orderly (answer : Except CallError Reply) : Prop :=
  (∃ e, answer = .error e ∧ e.backoff?.isSome) ∨ ∃ type mtime bytes, answer = partReply type mtime bytes

/-- The answer carries a part shorter than asked for. -/
def IsLast (limit : Nat) (answer : Except CallError Reply) : Prop :=
  ∃ bytes, partBytes? answer = some bytes ∧ bytes.size < limit

/-- After these calls the server gives orderly answers until one carries the last part, and then
`Final` holds. -/
inductive Serves (server : Server) (location : FileLocation) (limit : Nat)
    (Final : List FileCall → Prop) : List FileCall → Prop
  | step {calls : List FileCall} (can : ∃ answer, server calls (nextQuery location limit calls) answer)
      (orderly : ∀ answer, server calls (nextQuery location limit calls) answer → Orderly answer)
      (more : ∀ answer, server calls (nextQuery location limit calls) answer → ¬ IsLast limit answer →
        Serves server location limit Final (calls ++ [(nextQuery location limit calls, answer)]))
      (final : ∀ answer, server calls (nextQuery location limit calls) answer → IsLast limit answer →
        Final (calls ++ [(nextQuery location limit calls, answer)])) :
      Serves server location limit Final calls

@[simp] theorem partBytes?_partReply (type : FileType) (mtime : Int32) (bytes : ByteArray) :
    partBytes? (partReply type mtime bytes) = some bytes := rfl

@[simp] theorem partBytes?_error (e : CallError) : partBytes? (.error e) = none := rfl

@[simp] theorem received_snoc_error (calls : List FileCall) (query : FileQuery) (e : CallError) :
    received (calls ++ [(query, .error e)]) = received calls := by
  simp [received]

@[simp] theorem received_snoc_part (calls : List FileCall) (query : FileQuery) (type : FileType)
    (mtime : Int32) (bytes : ByteArray) :
    received (calls ++ [(query, partReply type mtime bytes)]) = received calls ++ [bytes] := by
  simp [received]

theorem isLast_partReply {type : FileType} {mtime : Int32} {bytes : ByteArray} :
    IsLast limit (partReply type mtime bytes) ↔ bytes.size < limit := by
  simp [IsLast]

theorem not_isLast_error (e : CallError) : ¬ IsLast limit (.error e) := by
  simp [IsLast]

theorem Orderly.no_updates {answer : Except CallError Reply} (h : Orderly answer) :
    Pipeline.updates? answer = none := by
  obtain ⟨e, rfl, _⟩ | ⟨type, mtime, bytes, rfl⟩ := h <;> rfl

/-! ## Parts of the program -/

/-- A request for the next part gives the part, or nothing after a refusal. -/
theorem requestPart_returns {server : Server} {t : List Event} {a : Account}
    (can : ∃ answer, server (fileCalls t) (nextQuery location limit (fileCalls t)) answer)
    (orderly : ∀ answer, server (fileCalls t) (nextQuery location limit (fileCalls t)) answer →
      Orderly answer) :
    Program.Returns R (accepting server)
      (fun r t' _ => ∃ answer,
        server (fileCalls t) (nextQuery location limit (fileCalls t)) answer ∧
        fileCalls t' = fileCalls t ++ [(nextQuery location limit (fileCalls t), answer)] ∧
        storageLog t' = storageLog t ∧
        ((∃ e, answer = .error e ∧ r = .ok none) ∨
          ∃ type mtime bytes, answer = partReply type mtime bytes ∧ r = .ok (some ⟨type, bytes⟩)))
      (requestPart location (nextQuery location limit (fileCalls t)).offset limit) t a := by
  refine Program.Returns.call can ?_ ?_
  · intro answer updates henv hu
    rw [(orderly answer henv).no_updates] at hu
    cases hu
  · intro answer es a₁ a' _ _ hes henv
    have hserver := hes.allowed henv
    have ho := orderly answer hserver
    obtain rfl := hes.eq ho.no_updates
    obtain ⟨e, rfl, he⟩ | ⟨type, mtime, bytes, rfl⟩ := ho
    · obtain ⟨ms, hms⟩ := Option.isSome_iff_exists.1 he
      simp only [Pipeline.outcome, hms]
      refine Program.Returns.pause ⟨.elapsed, rfl⟩ ?_
      rintro how a' _ rfl
      refine .done fun b _ => ⟨_, hserver, ?_, ?_, .inl ⟨e, rfl, rfl⟩⟩
      · simp [fileCalls, fileCall?.eq_def, nextQuery]
      · simp [storageLog, storageEvent?.eq_def]
    · refine .done fun b _ => ⟨_, hserver, ?_, ?_, .inr ⟨type, mtime, bytes, rfl, rfl⟩⟩
      · simp [fileCalls, fileCall?.eq_def, nextQuery]
      · simp [storageLog, storageEvent?.eq_def]

/-- The frames of a part arrive. -/
theorem sendFrames_returns {server : Server} (upload : Nat) (parts : List ByteArray) {t : List Event}
    {a : Account} :
    Program.Returns R (accepting server)
      (fun r t' _ => r = .ok () ∧ fileCalls t' = fileCalls t ∧
        storageLog t' = storageLog t ++ parts.map (.sent upload))
      (sendFrames upload parts) t a := by
  induction parts generalizing t a with
  | nil => exact .done fun b _ => ⟨rfl, rfl, by simp⟩
  | cons bytes rest ih =>
    refine Program.Returns.external ⟨.ok (), rfl⟩ ?_
    rintro answer a' _ rfl
    refine ih.mono ?_
    rintro r t' b ⟨rfl, hf, hs⟩
    refine ⟨rfl, ?_, ?_⟩
    · simpa [fileCalls, fileCall?.eq_def] using hf
    · simpa [storageLog, storageEvent?.eq_def] using hs

/-- The storage takes a new upload. -/
theorem openSink_returns {server : Server} {file : Envelope.File} {type : FileType} {t : List Event}
    {a : Account} :
    Program.Returns R (accepting server)
      (fun r t' _ => ∃ sink, r = .ok sink ∧ fileCalls t' = fileCalls t ∧
        storageLog t' = storageLog t ++ [.opened (.ok sink.upload)])
      (openSink file type) t a := by
  refine Program.Returns.external ⟨default, trivial⟩ fun now a₁ _ _ => ?_
  dsimp only
  refine Program.Returns.currentProfile (fun _ => ⟨default, trivial⟩) fun profile a₂ a₃ _ _ _ => ?_
  refine Program.Returns.external ⟨"", trivial⟩ fun uuid a₄ _ _ => ?_
  refine Program.Returns.external ⟨.ok 0, 0, rfl⟩ ?_
  rintro answer a₅ _ ⟨upload, rfl⟩
  refine .done fun b _ => ⟨_, rfl, ?_, ?_⟩
  · simp [fileCalls, fileCall?.eq_def]
  · simp [storageLog, storageEvent?.eq_def]

/-! ## The loop -/

/-- How far a download has come in a history: the offset is the number of bytes that have arrived,
the requests were in order, and the storage has seen the parts, or nothing yet. -/
structure Follows (location : FileLocation) (limit : Nat) (s : State) (t : List Event) : Prop where
  offset : s.offset = Int64.ofNat (Bytes.concat (received (fileCalls t))).size
  inOrder : InOrder location limit (fileCalls t)
  log : match s.sink with
    | none => received (fileCalls t) = [] ∧ storageLog t = []
    | some sink => storageLog t = openLog sink.upload (received (fileCalls t))

/-- There is an upload for the parts that have arrived. -/
theorem sinkFor_returns {server : Server} {file : Envelope.File} {type : FileType} {s : State}
    {t t₁ : List Event} {a : Account} (h : Follows location limit s t)
    (hlog : storageLog t₁ = storageLog t) :
    Program.Returns R (accepting server)
      (fun r t' _ => ∃ sink, r = .ok sink ∧ fileCalls t' = fileCalls t₁ ∧
        storageLog t' = openLog sink.upload (received (fileCalls t)))
      (sinkFor s file type) t₁ a := by
  have hl := h.log
  rcases hs : s.sink with _ | sink
  · simp only [hs] at hl
    simp only [sinkFor, hs]
    refine openSink_returns.mono ?_
    rintro r t' b ⟨sink, rfl, hf, hlog'⟩
    refine ⟨sink, rfl, hf, ?_⟩
    rw [hlog', hlog, hl.1, hl.2]
    rfl
  · simp only [hs] at hl
    simp only [sinkFor, hs]
    exact .done fun b _ => ⟨sink, rfl, rfl, hlog.trans hl⟩

theorem openLog_append (upload : Nat) (parts parts' : List ByteArray) :
    openLog upload (parts ++ parts') = openLog upload parts ++
      (parts'.filter fun bytes => !bytes.isEmpty).map (.sent upload) := by
  simp [openLog]

theorem map_frames (upload : Nat) (bytes : ByteArray) (last : Bool) :
    (frames bytes last).map (StorageEvent.sent upload) =
      (([bytes].filter fun bytes => !bytes.isEmpty).map (.sent upload)) ++
        if last then [.sent upload ByteArray.empty] else [] := by
  cases last <;> by_cases h : bytes.isEmpty <;> simp [frames, h]

/-- A turn brings a part to the storage, or repeats the request. -/
theorem turn_returns {server : Server} {Final : List FileCall → Prop} {file : Envelope.File}
    {s : State} {t : List Event} {a : Account} (h : Follows location limit s t)
    (hs : Serves server location limit Final (fileCalls t)) :
    Program.Returns R (accepting server)
      (Program.EndOfTurn
        (fun s' t' _ => Follows location limit s' t' ∧ ∃ answer,
          server (fileCalls t) (nextQuery location limit (fileCalls t)) answer ∧
          ¬ IsLast limit answer ∧
          fileCalls t' = fileCalls t ++ [(nextQuery location limit (fileCalls t), answer)])
        fun r t' _ => ∃ sink, r = .ok sink ∧ InOrder location limit (fileCalls t') ∧
          Final (fileCalls t') ∧ storageLog t' =
            openLog sink.upload (received (fileCalls t')) ++ [.sent sink.upload ByteArray.empty])
      (turn file location limit s) t a := by
  obtain ⟨can, orderly, more, final⟩ := hs
  have hq : s.offset = (nextQuery location limit (fileCalls t)).offset := h.offset
  unfold turn
  rw [hq]
  refine Program.Returns.bind (requestPart_returns can orderly) ?_
  rintro r t₁ a₁ ⟨answer, hserver, hcalls, hlog, ⟨e, rfl, rfl⟩ | ⟨type, mtime, bytes, rfl, rfl⟩⟩
  · refine .done fun b _ => ⟨⟨?_, ?_, ?_⟩, _, hserver, not_isLast_error e, hcalls⟩
    · rw [hcalls, received_snoc_error]
      exact h.offset
    · rw [hcalls]
      exact h.inOrder.snoc _
    · rw [hcalls, received_snoc_error, hlog]
      exact h.log
  · refine Program.Returns.bind (sinkFor_returns h hlog) ?_
    rintro _ t₂ a₂ ⟨sink, rfl, hcalls₂, hlog₂⟩
    refine Program.Returns.bind (sendFrames_returns sink.upload _) ?_
    rintro _ t₃ a₃ ⟨rfl, hcalls₃, hlog₃⟩
    have hcalls₃ := hcalls₃.trans (hcalls₂.trans hcalls)
    rw [hlog₂, map_frames, ← List.append_assoc, ← openLog_append] at hlog₃
    have hreceived := congrArg received hcalls₃
    rw [received_snoc_part] at hreceived
    have hinOrder := h.inOrder.snoc (partReply type mtime bytes)
    rw [← hcalls₃] at hinOrder
    by_cases hlast : bytes.size < limit
    · simp only [hlast, decide_true, if_true] at hlog₃ ⊢
      refine .done fun b _ => ⟨sink, rfl, hinOrder, ?_, ?_⟩
      · rw [hcalls₃]
        exact final _ hserver (isLast_partReply.2 hlast)
      · rw [hlog₃, hreceived]
    · simp only [hlast, decide_false, if_false, Bool.false_eq_true, List.append_nil] at hlog₃ ⊢
      refine .done fun b _ => ⟨⟨?_, hinOrder, ?_⟩, _, hserver, ?_, hcalls₃⟩
      · rw [hreceived, Bytes.concat_append, ByteArray.size_append]
        simp [nextQuery]
      · simp only [hlog₃, hreceived]
      · rwa [isLast_partReply]

/-- The loop ends with all parts in the storage, and the end mark behind them. -/
theorem turns_return {server : Server} {Final : List FileCall → Prop} {file : Envelope.File}
    {calls : List FileCall} (hs : Serves server location limit Final calls) {s : State}
    {t : List Event} {a : Account} (h : Follows location limit s t) (hcalls : fileCalls t = calls) :
    Program.Returns R (accepting server)
      (fun r t' _ => ∃ sink, r = .ok sink ∧ InOrder location limit (fileCalls t') ∧
        Final (fileCalls t') ∧ storageLog t' =
          openLog sink.upload (received (fileCalls t')) ++ [.sent sink.upload ByteArray.empty])
      (Program.iterate s (turn file location limit)) t a := by
  induction hs generalizing s t a with
  | @step calls can orderly more final ih =>
    subst hcalls
    refine Program.Returns.turn ((turn_returns h ⟨can, orderly, more, final⟩).mono ?_)
    rintro (s' | r) t' a' hr
    · obtain ⟨h', answer, hserver, hlast, hcalls⟩ := hr
      exact ih answer hserver hlast h' hcalls
    · exact hr

/-- A download from a server that serves it ends well: the storage holds a complete upload of the
parts that arrived, and every request was for the bytes after those that had arrived. -/
theorem toStorage_returns [Url.DomainMapping] {server : Server} {Final : List FileCall → Prop}
    {file : Envelope.File} {a : Account} (hR : ∀ a b, R.may a b → b.config = a.config)
    (hs : Serves server location a.config.partSize Final []) :
    Program.Returns R (accepting server)
      (fun r t _ => (∃ stored, r = .ok stored) ∧
        (∃ upload, storageLog t = fullLog upload (received (fileCalls t))) ∧
        InOrder location a.config.partSize (fileCalls t) ∧ Final (fileCalls t))
      (toStorage file location) [] a := by
  refine Program.Returns.read fun a₁ ha₁ => ?_
  rw [hR a a₁ ha₁]
  refine Program.Returns.bind
    (turns_return hs ⟨rfl, inOrder_nil location _, rfl, rfl⟩ fileCalls_nil) ?_
  rintro _ t₂ a₂ ⟨sink, rfl, hinOrder, hfinal, hlog⟩
  refine Program.Returns.external ⟨.ok default, default, rfl⟩ ?_
  rintro _ a₃ _ ⟨stored, rfl⟩
  refine Program.Returns.currentProfile (fun _ => ⟨default, trivial⟩) fun profile a₄ a₅ _ _ _ => ?_
  refine .done fun b _ => ⟨⟨_, rfl⟩, ⟨sink.upload, ?_⟩, ?_, ?_⟩
  · rw [storageLog_append, storageLog_append, hlog]
    simp [storageLog, storageEvent?.eq_def, fileCalls, fileCall?.eq_def, fullLog]
  · simpa [fileCalls, fileCall?.eq_def] using hinOrder
  · simpa [fileCalls, fileCall?.eq_def] using hfinal

end Telebridge.Download
