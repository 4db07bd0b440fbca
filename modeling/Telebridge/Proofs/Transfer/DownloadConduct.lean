import Telebridge.Proofs.Call.Typed
import Telebridge.Proofs.Transfer.Traffic
set_option autoImplicit false

/-! # The conduct of a download

Whatever it is answered, a download asks for parts of its file, sits out refusals and talks to the
storage, and does nothing else (`conforms_toStorage`). It comes to its end in any surroundings that
answer and do not keep it going for ever (`toStorage_ends`): what keeps it going is a part with something
in it, or a refusal that it sits out. -/

namespace Telebridge.Download

open Program

variable {R G : Others} {file : Envelope.File} {location : FileLocation} {limit : Nat}

/-! ## What it does -/

/-- The event can belong to a download. -/
inductive Downloading : Event → Prop
  | part (query : FileQuery) (answer : Except CallError Reply) :
      Downloading (.answered (.call (.getFile query)) answer)
  | paused (ms : Nat) (how : Pause) : Downloading (.paused ms how)
  | now (moment : FileName.Moment) : Downloading (.answered .now moment)
  | profile (id : ProfileId) (profile : Profile) : Downloading (.answered (.profile id) profile)
  | uuid (text : String) : Downloading (.answered .uuid text)
  | opened (header : Envelope.UploadHeader) (answer : Except GatewayError Nat) :
      Downloading (.answered (.openUpload header) answer)
  | sent (upload : Nat) (bytes : ByteArray) (answer : Except GatewayError Unit) :
      Downloading (.answered (.sendFrame upload bytes) answer)
  | closed (upload : Nat) (answer : Except GatewayError Envelope.StoredFile) :
      Downloading (.answered (.closeUpload upload) answer)

/-- The others may know of everything that an answer to a request for a part does to the account. -/
def Permits (G : Others) : Prop :=
  ∀ query answer a, (Request.getFile query).Accepts answer →
    G.may a (Pipeline.learn (.getFile query) answer a)

/-- Programs may do what a download does: it is shown, and calls for parts may come before whatever may
follow them. -/
structure Admits (R G : Others) (heard shown : Event → Prop) : Prop where
  shows : ∀ e, Downloading e → shown e
  part : ∀ {α : Type} {query : FileQuery} {f : Except CallError FileReply → Program α},
    (∀ r, (f r).Conforms R G heard shown) →
      (Pipeline.call (.getFile query) >>= f).Conforms R G heard shown

section

variable {heard shown : Event → Prop}

theorem Admits.conforms_requestPart (h : Admits R G heard shown) {offset : Int64} :
    (requestPart location offset limit).Conforms R G heard shown := by
  refine h.part fun r => ?_
  split
  · exact conforms_done _
  · exact conforms_done _
  · split
    · exact conforms_done _
    · refine Conforms.bind (conforms_pause fun how => h.shows _ (.paused _ how)) fun how => ?_
      cases how <;> exact conforms_done _

theorem Admits.conforms_sinkFor (h : Admits R G heard shown) {s : State} {type : FileType} :
    (sinkFor s file type).Conforms R G heard shown := by
  unfold sinkFor
  split
  · exact conforms_done _
  · refine conforms_external_bind fun moment _ => ⟨h.shows _ (.now moment), ?_⟩
    refine Conforms.bind (conforms_currentProfile fun id profile => h.shows _ (.profile id profile))
      fun profile => ?_
    refine conforms_external_bind fun uuid _ => ⟨h.shows _ (.uuid uuid), ?_⟩
    refine conforms_external_bind fun answer _ => ⟨h.shows _ (.opened _ answer), ?_⟩
    cases answer <;> exact conforms_done _

theorem Admits.conforms_sendFrames (h : Admits R G heard shown) (upload : Nat)
    (parts : List ByteArray) : (sendFrames upload parts).Conforms R G heard shown := by
  induction parts with
  | nil => exact conforms_done _
  | cons bytes rest ih =>
    refine conforms_external_bind fun answer _ => ⟨h.shows _ (.sent upload bytes answer), ?_⟩
    cases answer with
    | ok _ => exact ih
    | error e => exact conforms_done _

theorem Admits.conforms_turn (h : Admits R G heard shown) {s : State} :
    (turn file location limit s).Conforms R G heard shown := by
  refine Conforms.bind h.conforms_requestPart fun r => ?_
  rcases r with e | ⟨_ | part⟩
  · exact conforms_done _
  · exact conforms_done _
  · refine Conforms.bind h.conforms_sinkFor fun r => ?_
    cases r with
    | error e => exact conforms_done _
    | ok sink =>
      refine Conforms.bind (h.conforms_sendFrames _ _) fun r => ?_
      cases r with
      | error e => exact conforms_done _
      | ok _ =>
        dsimp only
        split <;> exact conforms_done _

/-- A download only asks for parts, waits, and brings them to the storage. -/
theorem Admits.conforms_toStorage [Url.DomainMapping] (h : Admits R G heard shown) :
    (toStorage file location).Conforms R G heard shown := by
  refine Conforms.bind conforms_read fun limit => ?_
  refine Conforms.bind (conforms_iterate fun s => h.conforms_turn) fun r => ?_
  cases r with
  | error e => exact conforms_done _
  | ok sink =>
    refine conforms_external_bind fun answer _ => ⟨h.shows _ (.closed _ answer), ?_⟩
    cases answer with
    | error e => exact conforms_done _
    | ok stored =>
      refine Conforms.bind (conforms_currentProfile fun id profile => h.shows _ (.profile id profile))
        fun _ => ?_
      exact conforms_done _

end

/-- If parts are answered with what they promise, a download shows nothing else. -/
theorem conforms_toStorage [Url.DomainMapping] (hG : Permits G) :
    (toStorage file location).Conforms R G Event.Typed Downloading := by
  have hadmits : Admits R G Event.Typed Downloading :=
    ⟨fun _ => id, fun hf => conforms_typed_call_bind (by simp [Request.expected]) fun answer hanswer =>
      ⟨.part _ answer, fun a => hG _ answer a hanswer, hf _⟩⟩
  exact hadmits.conforms_toStorage

/-! ## That it ends -/

/-- After the event a download may go on: it is a part with something in it, or a refusal that can be
sat out. -/
def prolongs : Event → Bool
  | .answered (.call (.getFile _)) answer =>
    match fileReply answer with
    | .ok (.part _ _ bytes) => !bytes.isEmpty
    | .ok (.cdnRedirect _ _ _ _) => false
    | .error e => e.backoff?.isSome
  | _ => false

/-- Surroundings that answer everything, calls with what they promise, and keep downloads going at most
so many times. -/
structure Responsive (bound : Nat) (env : Environment) : Prop where
  typed : ∀ t e, env t e → e.Typed
  answers : ∀ t {β : Type} (e : External β), ∃ b, env t (.answered e b)
  wakes : ∀ t ms, ∃ how, env t (.paused ms how)
  bounded : ∀ t e, env t e → prolongs e → t.countP prolongs < bound

/-- How often downloads may still go on after a history. -/
def remaining (bound : Nat) (t : List Event) : Nat :=
  bound - t.countP prolongs

variable {bound : Nat} {env : Environment} {t : List Event} {a : Account}

theorem remaining_append_le (t es : List Event) : remaining bound (t ++ es) ≤ remaining bound t := by
  unfold remaining
  rw [List.countP_append]
  omega

theorem Responsive.remaining_lt (henv : Responsive bound env) {e : Event} (he : env t e)
    (hp : prolongs e) : remaining bound (t ++ [e]) < remaining bound t := by
  have hbound := henv.bounded t e he hp
  unfold remaining
  rw [List.countP_append, List.countP_singleton, if_pos hp]
  omega

/-- A part with something in it, and a refusal that was sat out, bring a download closer to its end. -/
theorem requestPart_ends (henv : Responsive bound env) {offset : Int64} :
    Returns R env
      (fun r t' _ => (r = .ok none → remaining bound t' < remaining bound t) ∧
        ∀ part, r = .ok (some part) → ¬ part.bytes.isEmpty →
          remaining bound t' < remaining bound t)
      (requestPart location offset limit) t a := by
  refine Returns.typed_call (by simp [Request.expected]) henv.typed (henv.answers _ _) ?_
  intro answer a₁ a₂ _ _ hanswer _
  have hcloser := henv.remaining_lt hanswer
  simp only [prolongs] at hcloser
  rw [outcome_getFile]
  rcases hr : fileReply answer with e | reply
  · dsimp only
    cases hb : e.backoff? with
    | none => exact .done fun _ _ => ⟨by simp, by simp⟩
    | some ms =>
      simp only [hr, hb] at hcloser
      refine Returns.pause (henv.wakes _ _) fun how a₃ _ _ => ?_
      cases how with
      | cancelled => exact .done fun _ _ => ⟨by simp, by simp⟩
      | elapsed =>
        refine .done fun _ _ => ⟨fun _ => ?_, by simp⟩
        exact Nat.lt_of_le_of_lt (remaining_append_le _ _) (hcloser rfl)
  · cases reply with
    | part type mtime bytes =>
      simp only [hr] at hcloser
      refine .done fun _ _ => ⟨by simp, fun part hpart hbytes => ?_⟩
      obtain rfl : Part.mk type bytes = part := by simpa using hpart
      exact hcloser (by simpa using hbytes)
    | cdnRedirect => exact .done fun _ _ => ⟨by simp, by simp⟩

theorem sinkFor_ends (henv : Responsive bound env) {s : State} {type : FileType} :
    Returns R env (fun _ _ _ => True) (sinkFor s file type) t a := by
  unfold sinkFor
  split
  · exact .done fun _ _ => trivial
  · refine Returns.external (henv.answers _ _) fun moment a₁ _ _ => ?_
    refine Returns.currentProfile (fun id => henv.answers _ _) fun profile a₂ a₃ _ _ _ => ?_
    refine Returns.external (henv.answers _ _) fun uuid a₄ _ _ => ?_
    refine Returns.external (henv.answers _ _) fun answer a₅ _ _ => ?_
    cases answer <;> exact .done fun _ _ => trivial

theorem sendFrames_ends (henv : Responsive bound env) (upload : Nat) (parts : List ByteArray)
    {t : List Event} {a : Account} :
    Returns R env (fun _ _ _ => True) (sendFrames upload parts) t a := by
  induction parts generalizing t a with
  | nil => exact .done fun _ _ => trivial
  | cons bytes rest ih =>
    refine Returns.external (henv.answers _ _) fun answer a₁ _ _ => ?_
    cases answer with
    | ok _ => exact ih
    | error e => exact .done fun _ _ => trivial

/-- Every turn that is not the last brings the download closer to its end. -/
theorem turn_ends (henv : Responsive bound env) (hlimit : 0 < limit) {s : State} :
    Returns R env
      (EndOfTurn (fun _ t' _ => remaining bound t' < remaining bound t) fun _ _ _ => True)
      (turn file location limit s) t a := by
  refine Returns.bind (requestPart_ends henv) fun r t₁ a₁ h₁ => ?_
  rcases r with e | ⟨_ | part⟩
  · exact .done fun _ _ => trivial
  · exact .done fun _ _ => h₁.1 rfl
  · refine Returns.bind (sinkFor_ends henv).grows fun r t₂ a₂ h₂ => ?_
    obtain ⟨-, u, rfl⟩ := h₂
    cases r with
    | error e => exact .done fun _ _ => trivial
    | ok sink =>
      refine Returns.bind (sendFrames_ends henv _ _).grows fun r t₃ a₃ h₃ => ?_
      obtain ⟨-, v, rfl⟩ := h₃
      cases r with
      | error e => exact .done fun _ _ => trivial
      | ok _ =>
        dsimp only
        split
        · exact .done fun _ _ => trivial
        · next hlast =>
          have hbytes : ¬ part.bytes.isEmpty := by
            rw [Bytes.isEmpty_iff]
            intro hempty
            rw [hempty] at hlast
            exact hlast hlimit
          refine .done fun _ _ => Nat.lt_of_le_of_lt ?_ (h₁.2 part rfl hbytes)
          rw [List.append_assoc]
          exact remaining_append_le _ _

/-- A download comes to its end. -/
theorem toStorage_ends [Url.DomainMapping] (henv : Responsive bound env) :
    Returns R env (fun _ _ _ => True) (toStorage file location) t a := by
  refine Returns.read fun a₁ _ => ?_
  have hlimit : 0 < a₁.config.partSize := Nat.lt_of_lt_of_le Nat.one_pos (Nat.le_max_right _ _)
  have hloop : Returns R env (fun _ _ _ => True)
      (iterate {} (turn file location a₁.config.partSize)) t a₁ := by
    refine Returns.iterate (fun n _ t _ => n = remaining bound t) ?_ rfl
    rintro n s t a rfl
    refine (turn_ends henv hlimit).mono ?_
    rintro (s' | r) t' a' h
    · exact ⟨_, h, rfl⟩
    · trivial
  refine Returns.bind hloop fun r t₁ a₂ _ => ?_
  cases r with
  | error e => exact .done fun _ _ => trivial
  | ok sink =>
    refine Returns.external (henv.answers _ _) fun answer a₃ _ _ => ?_
    cases answer with
    | error e => exact .done fun _ _ => trivial
    | ok stored =>
      refine Returns.currentProfile (fun _ => henv.answers _ _) fun profile a₄ a₅ _ _ _ => ?_
      exact .done fun _ _ => trivial

end Telebridge.Download
