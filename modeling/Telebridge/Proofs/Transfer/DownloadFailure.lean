import Telebridge.Proofs.Transfer.Traffic
set_option autoImplicit false

/-! # Downloads that fail

Whatever the server and the storage answer, a download that has failed stops: the storage sees nothing
more, so the end mark is missing and the upload is never closed. -/

namespace Telebridge.Download

open Program Environment

variable {R : Others}

/-- The event ends a download: a call failed for good or came back with a redirect, the storage
refused something, or the transfer was cancelled while it waited. -/
def Failure : Event → Prop
  | .answered (.call (.getFile _)) answer =>
    match fileReply answer with
    | .ok (.part _ _ _) => False
    | .ok (.cdnRedirect _ _ _ _) => True
    | .error e => e.backoff? = none
  | .answered (.openUpload _) (.error _) => True
  | .answered (.sendFrame _ _) (.error _) => True
  | .paused _ .cancelled => True
  | _ => False

/-- After a failure nothing reaches the storage, and there is none after the end of an upload. -/
def quiet : Environment := fun t e =>
  ((∃ f ∈ t, Failure f) → storageEvent? e = none) ∧
  (Failure e → ∀ upload, .closed upload ∉ storageLog t)

/-- No failure so far, and no upload that has ended. -/
def Clean (t : List Event) : Prop :=
  (∀ f ∈ t, ¬ Failure f) ∧ ∀ upload, .closed upload ∉ storageLog t

theorem Clean.quiet {t : List Event} (h : Clean t) (e : Event) : quiet t e :=
  ⟨fun ⟨f, hf, hf'⟩ => absurd hf' (h.1 f hf), fun _ => h.2⟩

/-- Events that are neither failures nor the end of an upload leave everything clean. -/
theorem Clean.append {t es : List Event} (h : Clean t)
    (hes : ∀ e ∈ es, ¬ Failure e ∧ ∀ upload, storageEvent? e ≠ some (.closed upload)) :
    Clean (t ++ es) := by
  constructor
  · intro f hf
    rcases List.mem_append.1 hf with hf | hf
    · exact h.1 f hf
    · exact (hes f hf).1
  · intro upload hu
    rw [storageLog_append] at hu
    rcases List.mem_append.1 hu with hu | hu
    · exact h.2 upload hu
    · obtain ⟨f, hf, hf'⟩ := List.mem_filterMap.1 hu
      exact (hes f hf).2 upload hf'

theorem Clean.snoc {t : List Event} (h : Clean t) {e : Event} (he : ¬ Failure e)
    (hc : ∀ upload, storageEvent? e ≠ some (.closed upload)) : Clean (t ++ [e]) := by
  refine h.append fun f hf => ?_
  rw [List.mem_singleton.1 hf]
  exact ⟨he, hc⟩

/-- The end of an upload is not a failure. -/
theorem Failure.not_closed {e : Event} (h : Failure e) (upload : Nat) :
    storageEvent? e ≠ some (.closed upload) := by
  intro hu
  unfold storageEvent? at hu
  split at hu
  · cases hu
  · cases hu
  · exact h
  · cases hu

/-- What holds after a part of a download: all is clean, unless it failed. -/
def CleanUnlessError {α : Type} (r : Except TransferError α) (t : List Event) (_ : Account) : Prop :=
  ∀ v, r = .ok v → Clean t

theorem cleanUnlessError_error {α : Type} (e : TransferError) (t : List Event) (a : Account) :
    CleanUnlessError (.error e : Except TransferError α) t a := by
  intro v h
  cases h

/-! ## Parts of the program -/

theorem requestPart_safe {location : FileLocation} {offset : Int64} {limit : Nat} {t : List Event}
    {a : Account} (h : Clean t) :
    Safe R anything quiet CleanUnlessError (requestPart location offset limit) t a := by
  refine Safe.call (fun _ _ => h.quiet _) fun answer es a₁ a' _ _ hes _ => ⟨?_, ?_⟩
  · refine hes.allows (h.quiet _) fun t updates o => ⟨fun _ => rfl, fun hf => hf.elim⟩
  · -- the exchange is clean unless its answer is a failure
    have hclean (ha : ¬ Failure (.answered (.call (.getFile
        { location, offset, limit := Int32.ofNat limit })) answer)) : Clean (t ++ es) := by
      refine h.append fun e he => ?_
      obtain rfl | ⟨updates, o, rfl⟩ := hes.mem he
      · exact ⟨ha, fun _ hu => by cases hu⟩
      · exact ⟨id, fun _ hu => by cases hu⟩
    simp only [Failure] at hclean
    rcases hr : fileReply answer with e | reply
    · simp only [outcome_getFile, hr] at hclean ⊢
      cases hb : e.backoff? with
      | none => exact Safe.done fun _ _ => cleanUnlessError_error _ _ _
      | some ms =>
        have hclean := hclean (by simp [hb])
        refine Safe.pause fun how a₂ _ _ => ⟨hclean.quiet _, ?_⟩
        cases how with
        | elapsed => exact Safe.done fun _ _ _ _ => hclean.snoc id fun _ hu => by cases hu
        | cancelled => exact Safe.done fun _ _ => cleanUnlessError_error _ _ _
    · cases reply with
      | part type mtime bytes =>
        simp only [outcome_getFile, hr] at hclean ⊢
        exact Safe.done fun _ _ _ _ => hclean not_false
      | cdnRedirect =>
        simp only [outcome_getFile, hr]
        exact Safe.done fun _ _ => cleanUnlessError_error _ _ _

theorem openSink_safe {file : Envelope.File} {type : FileType} {t : List Event} {a : Account}
    (h : Clean t) : Safe R anything quiet CleanUnlessError (openSink file type) t a := by
  refine Safe.external fun now a₁ _ _ => ⟨h.quiet _, ?_⟩
  have h := h.snoc (e := .answered .now now) id fun _ hu => by cases hu
  dsimp only
  refine Safe.currentProfile fun profile a₂ a₃ _ _ _ => ⟨h.quiet _, ?_⟩
  have h := h.snoc (e := .answered (.profile a₂.profile) profile) id fun _ hu => by cases hu
  refine Safe.external fun uuid a₄ _ _ => ⟨h.quiet _, ?_⟩
  have h := h.snoc (e := .answered .uuid uuid) id fun _ hu => by cases hu
  refine Safe.external fun answer a₅ _ _ => ⟨h.quiet _, ?_⟩
  cases answer with
  | ok upload => exact Safe.done fun _ _ _ _ => h.snoc id fun _ hu => by cases hu
  | error e => exact Safe.done fun _ _ => cleanUnlessError_error _ _ _

theorem sinkFor_safe {file : Envelope.File} {type : FileType} {s : State} {t : List Event}
    {a : Account} (h : Clean t) :
    Safe R anything quiet CleanUnlessError (sinkFor s file type) t a := by
  unfold sinkFor
  cases s.sink with
  | some sink => exact Safe.done fun _ _ _ _ => h
  | none => exact openSink_safe h

theorem sendFrames_safe (upload : Nat) (parts : List ByteArray) {t : List Event} {a : Account}
    (h : Clean t) : Safe R anything quiet CleanUnlessError (sendFrames upload parts) t a := by
  induction parts generalizing t a with
  | nil => exact Safe.done fun _ _ _ _ => h
  | cons bytes rest ih =>
    refine Safe.external fun answer a₁ _ _ => ⟨h.quiet _, ?_⟩
    cases answer with
    | ok _ => exact ih (h.snoc id fun _ hu => by cases hu)
    | error e => exact Safe.done fun _ _ => cleanUnlessError_error _ _ _

/-! ## The whole download -/

/-- A turn leaves everything clean, unless it ends the loop with an error. -/
theorem turn_safe {file : Envelope.File} {location : FileLocation} {limit : Nat} {s : State}
    {t : List Event} {a : Account} (h : Clean t) :
    Safe R anything quiet
      (EndOfTurn (fun _ t _ => Clean t) CleanUnlessError) (turn file location limit s) t a := by
  refine Safe.bind (requestPart_safe h) fun r t₁ a₁ h₁ => ?_
  rcases r with e | ⟨_ | part⟩
  · exact Safe.done fun b _ => cleanUnlessError_error e t₁ b
  · exact Safe.done fun _ _ => h₁ _ rfl
  · refine Safe.bind (sinkFor_safe (h₁ _ rfl)) fun r t₂ a₂ h₂ => ?_
    cases r with
    | error e => exact Safe.done fun b _ => cleanUnlessError_error e t₂ b
    | ok sink =>
      refine Safe.bind (sendFrames_safe _ _ (h₂ _ rfl)) fun r t₃ a₃ h₃ => ?_
      cases r with
      | error e => exact Safe.done fun b _ => cleanUnlessError_error e t₃ b
      | ok _ =>
        have h₃ := h₃ _ rfl
        dsimp only
        split
        · exact Safe.done fun _ _ _ _ => h₃
        · exact Safe.done fun _ _ => h₃

theorem toStorage_safe [Url.DomainMapping] {file : Envelope.File} {location : FileLocation}
    {a : Account} :
    Safe R anything quiet (fun r t _ => (∃ f ∈ t, Failure f) → ∃ e, r = .error e)
      (toStorage file location) [] a := by
  have hclean : Clean [] := ⟨fun _ hf => absurd hf List.not_mem_nil, fun _ => List.not_mem_nil⟩
  refine Safe.read fun a₁ _ => ?_
  refine Safe.bind (P := CleanUnlessError)
    (Safe.iterate (fun _ t _ => Clean t) (fun _ _ _ h => turn_safe h) hclean) fun r t a₂ h => ?_
  cases r with
  | error e => exact Safe.done fun _ _ _ => ⟨_, rfl⟩
  | ok sink =>
    have h := h _ rfl
    refine Safe.external fun answer a₃ _ _ => ⟨h.quiet _, ?_⟩
    cases answer with
    | error e => exact Safe.done fun _ _ _ => ⟨_, rfl⟩
    | ok stored =>
      refine Safe.currentProfile fun profile a₄ a₅ _ _ _ => ⟨⟨fun _ => rfl, fun hf => hf.elim⟩, ?_⟩
      refine Safe.done fun b _ hf => ?_
      obtain ⟨f, hf, hf'⟩ := hf
      simp only [List.mem_append, List.mem_singleton] at hf
      obtain (hf | rfl) | rfl := hf
      · exact absurd hf' (h.1 f hf)
      · exact hf'.elim
      · exact hf'.elim

/-- After a failure the storage sees nothing more, the upload is never closed, and if the download
ends it ends with an error. -/
theorem toStorage_stops [Url.DomainMapping] {file : Envelope.File} {location : FileLocation}
    {a b : Account} {q : Program (Except TransferError Envelope.File)} {t₁ t₂ : List Event} {e : Event}
    (hrun : Run R (toStorage file location) a (t₁ ++ e :: t₂) q b) (he : Failure e) :
    (∀ upload, .closed upload ∉ storageLog (t₁ ++ e :: t₂)) ∧ storageLog t₂ = [] ∧
      ∀ r, q = .done r → ∃ err, r = .error err := by
  obtain ⟨hquiet, hq⟩ := toStorage_safe _ _ _ hrun (anything_allows _ _)
  rw [allows_append] at hquiet
  obtain ⟨-, ⟨-, hclosed⟩, hrest⟩ := hquiet
  have hlog : storageLog t₂ = [] := by
    rw [storageLog, List.filterMap_eq_nil_iff]
    intro f hf
    obtain ⟨u, v, rfl⟩ := List.append_of_mem hf
    exact hrest.at.1 ⟨e, by simp, he⟩
  refine ⟨fun upload hu => ?_, hlog, fun r hr => hq r hr ⟨e, by simp, he⟩⟩
  rw [storageLog_append, storageLog, storageLog, ← List.singleton_append, List.filterMap_append,
    ← storageLog, ← storageLog, ← storageLog, hlog, List.append_nil] at hu
  rcases List.mem_append.1 hu with hu | hu
  · exact hclosed he upload hu
  · obtain ⟨f, hf, hf'⟩ := List.mem_filterMap.1 hu
    rw [List.mem_singleton.1 hf] at hf'
    exact he.not_closed upload hf'

end Telebridge.Download
