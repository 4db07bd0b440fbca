import Telebridge.Proofs.Call.Persistence
import Telebridge.Transfer.Upload
set_option autoImplicit false

/-! # Uploads that fail

A part fails for good when its call fails and the retry policy gives up, or when the wait before the
next attempt is cancelled. Whatever the surroundings do, nothing is sent after that, and no file is
returned (`fromWeb_stops`). The upload comes to its end if the body has one and the server relents, and
then the failure is answered with an error (`fromWeb_fails`). -/

namespace Telebridge.Upload

open Program Pipeline Environment

variable {R : Others} {policy : RetryPolicy}

/-- After a history, the event makes a part fail for good. -/
def Failure (policy : RetryPolicy) (t : List Event) : Event → Prop
  | .answered (.call request) answer =>
    match outcome request answer with
    | .ok _ => False
    | .error e => policy.delay? (failures (calls t)) e = none
  | .paused _ .cancelled => True
  | _ => False

/-- No part has failed for good. -/
def Clean (policy : RetryPolicy) (t : List Event) : Prop :=
  Environment.Allows (fun t e => ¬ Failure policy t e) [] t

/-- Calls are made only as long as no part has failed for good. -/
def halting (policy : RetryPolicy) : Environment := fun t e =>
  Clean policy t ∨ call? e = none

/-- The event is neither a call nor does it make a part fail. -/
def Harmless (policy : RetryPolicy) (e : Event) : Prop :=
  call? e = none ∧ ∀ t, ¬ Failure policy t e

theorem Clean.append {t es : List Event} (h : Clean policy t)
    (hes : Environment.Allows (fun t e => ¬ Failure policy t e) t es) : Clean policy (t ++ es) :=
  (allows_append ..).2 ⟨h, by simpa using hes⟩

/-- An exchange is clean if its answer is not a failure. -/
theorem Clean.exchange {t es : List Event} {request : Request} {answer : Except CallError Reply}
    (h : Clean policy t) (hes : Exchange request answer es)
    (ha : ¬ Failure policy t (.answered (.call request) answer)) : Clean policy (t ++ es) :=
  h.append (hes.allows ha fun _ _ _ => id)

/-! ## Sending parts -/

/-- Between parts: none has failed, and the count of failures starts anew. -/
structure Ready (policy : RetryPolicy) (config : Config) (t : List Event) (a : Account) : Prop where
  clean : Clean policy t
  failures : Pipeline.failures (calls t) = 1
  config : a.config = config

/-- The others leave everything ready. -/
theorem Ready.others {config : Config} {t : List Event} {a b : Account}
    (h : Ready policy config t a) (hb : b.config = a.config) : Ready policy config t b :=
  ⟨h.clean, h.failures, hb.trans h.config⟩

/-- A harmless event leaves everything ready. -/
theorem Ready.snoc {config : Config} {t : List Event} {a : Account} {e : Event}
    (h : Ready policy config t a) (he : Harmless policy e) : Ready policy config (t ++ [e]) a := by
  refine ⟨h.clean.append (by simpa using he.2 t), ?_, h.config⟩
  have hcalls : calls [e] = [] := List.filterMap_cons_none he.1
  rw [calls_append, hcalls, List.append_nil]
  exact h.failures

/-- What holds after a call or several: everything is ready for the next, unless it failed. -/
def ReadyUnlessError {ε α : Type} (policy : RetryPolicy) (config : Config) (r : Except ε α)
    (t : List Event) (a : Account) : Prop :=
  ∀ v, r = .ok v → Ready policy config t a

theorem readyUnlessError_error {ε α : Type} (config : Config) (e : ε) (t : List Event)
    (a : Account) : ReadyUnlessError policy config (.error e : Except ε α) t a := by
  intro v h
  cases h

theorem callWithRetry_safe {config : Config} {request : Request} {t : List Event} {a : Account}
    (hR : ∀ a b, R.may a b → b.config = a.config) (h : Ready policy config t a) :
    Safe R anything (halting policy) (ReadyUnlessError policy config)
      (callWithRetry policy request) t a := by
  refine Safe.iterate (fun f t b => Clean policy t ∧ failures (calls t) = f ∧ b.config = config) ?_
    ⟨h.clean, h.failures, h.config⟩
  rintro f t₁ a₁ ⟨hclean, rfl, hconfig⟩
  refine Safe.call (fun _ _ => .inl hclean) fun answer es a₂ a₃ ha₂ ha₃ hes _ => ⟨?_, ?_⟩
  · exact hes.allows (.inl hclean) fun _ _ _ => .inr rfl
  · have hconfig₃ : a₃.config = config := by
      rw [hR _ _ ha₃, learn_config, hR _ _ ha₂, hconfig]
    have hfail : Failure policy t₁ (.answered (.call request) answer) =
        match outcome request answer with
        | .ok _ => False
        | .error e => policy.delay? (failures (calls t₁)) e = none := rfl
    cases ho : outcome request answer with
    | ok v =>
      have hclean' := hclean.exchange hes (by rw [hfail, ho]; exact id)
      refine Safe.done fun b hb _ _ => ⟨hclean', ?_, (hR _ _ hb).trans hconfig₃⟩
      rw [calls_append, hes.calls_eq]
      cases answer with
      | error e => cases ho
      | ok reply => exact failures_snoc_ok _ _ _
    | error e =>
      simp only [ho] at hfail ⊢
      cases hd : policy.delay? (failures (calls t₁)) e with
      | none => exact Safe.done fun b _ => readyUnlessError_error config e _ b
      | some ms =>
        have hclean' := hclean.exchange hes (by rw [hfail, hd]; simp)
        refine Safe.pause fun how a₄ ha₄ _ => ⟨.inr rfl, ?_⟩
        cases how with
        | cancelled => exact Safe.done fun b _ => readyUnlessError_error config _ _ b
        | elapsed =>
          have hfailures : failures (calls (t₁ ++ es ++ [.paused ms .elapsed])) =
              RetryPolicy.nextFailure (failures (calls t₁)) := by
            rw [calls_append, calls_append, hes.calls_eq, outcome_error_eq ho hd]
            exact (congrArg failures (List.append_nil _)).trans (failures_snoc_error _ _ _)
          refine Safe.done fun b hb => ⟨hclean'.append (by simp [Failure]), hfailures, ?_⟩
          rw [hR _ _ hb, hR _ _ ha₄, hconfig₃]

/-- Parts are sent until one fails. -/
theorem sendParts_safe {config : Config} {fileId : Int64} {ps : List FilePart} {t : List Event}
    {a : Account} (hR : ∀ a b, R.may a b → b.config = a.config)
    (h : Ready config.retryPolicy config t a) :
    Safe R anything (halting config.retryPolicy) (ReadyUnlessError config.retryPolicy config)
      (sendParts fileId ps) t a := by
  induction ps generalizing t a with
  | nil => exact Safe.done fun b hb _ _ => h.others (hR _ _ hb)
  | cons p rest ih =>
    have hcall : Safe R anything (halting config.retryPolicy)
        (ReadyUnlessError config.retryPolicy config)
        (callPersistently (partRequest fileId p)) t a := by
      refine Safe.read fun a₁ ha₁ => ?_
      have hconfig := (hR _ _ ha₁).trans h.config
      rw [hconfig]
      exact callWithRetry_safe hR ⟨h.clean, h.failures, hconfig⟩
    refine Safe.bind hcall fun r t₁ a₁ h₁ => ?_
    cases r with
    | ok v => exact ih (h₁ v rfl)
    | error e => exact Safe.done fun b _ => readyUnlessError_error config _ _ b

/-! ## The whole upload -/

/-- What makes no call and cannot fail leaves everything ready. -/
theorem harmless_safe {α : Type} {config : Config} {p : Program α} {t : List Event} {a : Account}
    (hR : ∀ a b, R.may a b → b.config = a.config)
    (hp : p.Conforms R .sameConfig (fun _ => True) (Harmless policy)) (h : Ready policy config t a) :
    Safe R anything (halting policy) (fun _ => Ready policy config) p t a := by
  refine Safe.of_conforms (Ready policy config) hR hp (fun _ _ _ => trivial) ?_ ?_ h
  · intro t a e h _ he
    exact ⟨.inr he.1, h.snoc he⟩
  · intro t a b h hG
    exact h.others hG

/-- All that a fetch shows is the answer of the web server. -/
theorem conforms_fetch [Url.DomainMapping] {G : Others} {heard shown : Event → Prop} (url : String)
    (h : ∀ u answer, shown (.answered (.fetch u) answer)) :
    (fetch url).Conforms R G heard shown := by
  unfold fetch
  split
  · exact conforms_done _
  · split
    · refine conforms_external_bind fun answer _ => ⟨h _ answer, ?_⟩
      split
      · split <;> exact conforms_done _
      · exact conforms_done _
    · exact conforms_done _

theorem turn_safe {config : Config} {url : String} {fileId : Int64} {body : Nat}
    {buffer : PartBuffer} {t : List Event} {a : Account}
    (hR : ∀ a b, R.may a b → b.config = a.config) (h : Ready config.retryPolicy config t a) :
    Safe R anything (halting config.retryPolicy)
      (EndOfTurn (fun _ => Ready config.retryPolicy config)
        (ReadyUnlessError config.retryPolicy config)) (turn url fileId body buffer) t a := by
  refine Safe.bind (harmless_safe hR ?_ h) fun r t₁ a₁ h₁ => ?_
  · exact conforms_unlessCancelled (conforms_external fun b _ => ⟨rfl, fun _ => id⟩)
      ⟨rfl, fun _ => id⟩
  · rcases r with _ | e | _ | data
    · exact Safe.done fun b _ => readyUnlessError_error config _ _ b
    · exact Safe.done fun b _ => readyUnlessError_error config _ _ b
    · refine Safe.bind (sendParts_safe hR h₁) fun r t₂ a₂ h₂ => ?_
      cases r with
      | ok _ => exact Safe.done fun b hb _ _ => (h₂ () rfl).others (hR _ _ hb)
      | error e => exact Safe.done fun b _ => readyUnlessError_error config _ _ b
    · refine Safe.bind (sendParts_safe hR h₁) fun r t₂ a₂ h₂ => ?_
      cases r with
      | ok _ => exact Safe.done fun b hb => (h₂ () rfl).others (hR _ _ hb)
      | error e => exact Safe.done fun b _ => readyUnlessError_error config _ _ b

theorem fromWeb_safe [Url.DomainMapping] [Mime.Associations] {file : Envelope.File} {a : Account}
    (hR : ∀ a b, R.may a b → b.config = a.config) :
    Safe R anything (halting a.config.retryPolicy)
      (fun r t _ => ¬ Clean a.config.retryPolicy t → ∃ e, r = .error e) (fromWeb file) [] a := by
  have hready : Ready a.config.retryPolicy a.config [] a := ⟨trivial, rfl, rfl⟩
  have hfetch : (unlessCancelled (fetch file.url)).Conforms R .sameConfig (fun _ => True)
      (Harmless a.config.retryPolicy) :=
    conforms_unlessCancelled (conforms_fetch file.url fun _ _ => ⟨rfl, fun _ => id⟩)
      ⟨rfl, fun _ => id⟩
  refine Safe.bind (harmless_safe hR hfetch hready) fun r t₁ a₁ h₁ => ?_
  rcases r with _ | e | response
  · exact Safe.done fun _ _ _ => ⟨_, rfl⟩
  · exact Safe.done fun _ _ _ => ⟨_, rfl⟩
  · refine Safe.read fun a₂ ha₂ => ?_
    refine Safe.external fun fileId a₃ ha₃ _ => ⟨.inr rfl, ?_⟩
    have h₃ := ((h₁.others (hR _ _ ha₂)).others (hR _ _ ha₃)).snoc
      (e := .answered .randomId fileId) ⟨rfl, fun _ => id⟩
    refine Safe.bind (P := ReadyUnlessError a.config.retryPolicy a.config)
      (Safe.iterate (fun _ => Ready a.config.retryPolicy a.config)
        (fun _ _ _ h => turn_safe hR h) h₃) fun r t₄ a₄ h₄ => ?_
    cases r with
    | error e => exact Safe.done fun _ _ _ => ⟨_, rfl⟩
    | ok buffer => exact Safe.done fun _ _ hc => absurd (h₄ _ rfl).clean hc

/-- After a part has failed for good nothing is sent, and if the upload ends it ends with an error. -/
theorem fromWeb_stops [Url.DomainMapping] [Mime.Associations] {file : Envelope.File} {a b : Account}
    {q : Program (Except TransferError UploadedMedia)} {t₁ t₂ : List Event} {e : Event}
    (hR : ∀ a b, R.may a b → b.config = a.config)
    (hrun : Run R (fromWeb file) a (t₁ ++ e :: t₂) q b) (he : Failure a.config.retryPolicy t₁ e) :
    calls t₂ = [] ∧ ∀ r, q = .done r → ∃ err, r = .error err := by
  have hfailed (u : List Event) : ¬ Clean a.config.retryPolicy (t₁ ++ e :: u) := by
    intro h
    exact absurd he (by simpa using h.at)
  obtain ⟨hhalt, hq⟩ := fromWeb_safe hR _ _ _ hrun (anything_allows _ _)
  refine ⟨?_, fun r hr => hq r hr (hfailed t₂)⟩
  rw [calls, List.filterMap_eq_nil_iff]
  intro f hf
  obtain ⟨u, v, rfl⟩ := List.append_of_mem hf
  rw [← List.cons_append, ← List.append_assoc] at hhalt
  exact hhalt.at.resolve_left (by simpa using hfailed u)

/-! ## Uploads come to an end -/

/-- How many chunks have been asked for. -/
def chunksTaken (t : List Event) : Nat :=
  t.countP fun
    | .answered (.nextChunk _) _ => true
    | _ => false

theorem chunksTaken_append (t u : List Event) :
    chunksTaken (t ++ u) = chunksTaken t + chunksTaken u :=
  List.countP_append

/-- The surroundings in which a body has an end, after so many chunks at most, and the server relents as
far as the policy needs it. Anything else may happen: parts fail for good, the body breaks off, and the
token is cancelled at any moment. -/
def ending (policy : RetryPolicy) (count bound : Nat) : Environment := fun t e =>
  match e with
  | .answered (.nextChunk _) answer => ∀ data, answer = .ok (some data) → chunksTaken t < count
  | e => relenting policy bound t e

theorem relents_ending (policy : RetryPolicy) (count bound : Nat) :
    Relents policy bound (ending policy count bound) where
  answers _ _ := nofun
  handles _ _ := trivial
  elapses _ _ := trivial
  refuses _ _ err h := h err rfl

variable {count bound : Nat} {t : List Event} {a : Account}

theorem sendParts_ends {fileId : Int64} {ps : List FilePart}
    (hR : ∀ a b, R.may a b → b.config = a.config) (hpolicy : a.config.retryPolicy = policy) :
    Returns R (ending policy count bound) (fun _ t' b => t <+: t' ∧ b.config = a.config)
      (sendParts fileId ps) t a := by
  have h : Returns R (ending policy count bound) (fun _ _ b => b.config = a.config)
      (sendParts fileId ps) t a := by
    induction ps generalizing t a with
    | nil => exact .done fun b hb => hR _ _ hb
    | cons p rest ih =>
      refine (callPersistently_ends (relents_ending ..) hR hpolicy).bind fun r t₁ a₁ hconfig => ?_
      cases r with
      | ok v => exact (ih (hconfig ▸ hpolicy)).mono fun _ _ _ h => h.trans hconfig
      | error e => exact .done fun b hb => (hR _ _ hb).trans hconfig
  exact h.grows.mono fun _ _ _ h => h.symm

/-- A turn comes to its end. If there is another, the chunk was one of those that can come. -/
theorem turn_ends {url : String} {fileId : Int64} {body : Nat} {buffer : PartBuffer}
    (hR : ∀ a b, R.may a b → b.config = a.config) (hpolicy : a.config.retryPolicy = policy) :
    Returns R (ending policy count bound)
      (EndOfTurn (fun _ t' b => chunksTaken t < count ∧ chunksTaken t < chunksTaken t' ∧
        b.config = a.config) fun _ _ _ => True) (turn url fileId body buffer) t a := by
  refine Returns.unlessCancelled_external (e := .nextChunk body) (g := .done) (fun x => ⟨x, rfl⟩)
    (fun _ => ⟨.ok none, nofun⟩) (fun _ _ => .done fun _ _ => trivial) ?_
  rintro u r v _ a₁ hcancelled henv ⟨⟩ ha₁
  have hconfig := hR _ _ ha₁
  have hnone (w : List Event) (hw : w ⊆ u ++ v) : chunksTaken w = 0 := by
    refine List.countP_eq_zero.2 fun e he => ?_
    rw [hcancelled e (hw he)]
    exact Bool.false_ne_true
  have htaken : chunksTaken (t ++ u) = chunksTaken t := by
    rw [chunksTaken_append, hnone u (List.subset_append_left u v), Nat.add_zero]
  have hlater {t' : List Event} (h : t ++ u ++ [.answered (.nextChunk body) r] ++ v <+: t') :
      chunksTaken t < chunksTaken t' := by
    obtain ⟨w, rfl⟩ := h
    rw [chunksTaken_append, chunksTaken_append, chunksTaken_append, htaken]
    show chunksTaken t < chunksTaken t + 1 + _ + _
    omega
  rcases r with e | _ | data
  · exact .done fun _ _ => trivial
  · refine (sendParts_ends hR (hconfig ▸ hpolicy)).bind fun r _ _ _ => ?_
    cases r <;> exact .done fun _ _ => trivial
  · refine (sendParts_ends hR (hconfig ▸ hpolicy)).bind fun r t₂ a₂ h₂ => ?_
    cases r with
    | error e => exact .done fun _ _ => trivial
    | ok _ =>
      refine .done fun b hb => ⟨?_, hlater h₂.1, (hR _ _ hb).trans (h₂.2.trans hconfig)⟩
      rw [← htaken]
      exact henv data rfl

/-- Every turn but the last takes one of the chunks that can come. -/
theorem turns_end {url : String} {fileId : Int64} {body : Nat} {buffer : PartBuffer}
    (hR : ∀ a b, R.may a b → b.config = a.config) (hpolicy : a.config.retryPolicy = policy) :
    Returns R (ending policy count bound) (fun _ _ _ => True)
      (iterate buffer (turn url fileId body)) t a := by
  refine Returns.iterate (fun n _ t' b => n = count - chunksTaken t' ∧ b.config = a.config) ?_
    ⟨rfl, rfl⟩
  rintro n buffer t₁ a₁ ⟨rfl, hconfig⟩
  refine (turn_ends hR (hconfig ▸ hpolicy)).mono ?_
  rintro (buffer' | r) t₂ a₂ h
  · obtain ⟨hlt, htaken, hconfig₂⟩ := h
    exact ⟨_, by omega, rfl, hconfig₂.trans hconfig⟩
  · trivial

/-- A fetch that may be cancelled comes to its end, and what follows it if that does. -/
theorem fetch_ends [Url.DomainMapping] {α : Type} {url : String}
    {f : Option (Except TransferError WebResponse) → Program α} {Q : α → List Event → Account → Prop}
    (hnone : ∀ t' a', Returns R (ending policy count bound) Q (f none) t' a')
    (hsome : ∀ r t' a', R.may a a' → Returns R (ending policy count bound) Q (f (some r)) t' a') :
    Returns R (ending policy count bound) Q (unlessCancelled (fetch url) >>= f) t a := by
  unfold fetch
  split
  · exact Returns.unlessCancelled_done hnone fun _ a' _ ha' => hsome _ _ a' ha'
  · split
    · refine Returns.unlessCancelled_external (fun answer => ?_) (fun _ => ⟨.error .unparsable, trivial⟩)
        hnone fun _ _ _ r a' _ _ _ ha' => hsome r _ a' ha'
      rcases answer with e | response
      · exact ⟨_, rfl⟩
      · dsimp only
        split <;> exact ⟨_, rfl⟩
    · exact Returns.unlessCancelled_done hnone fun _ a' _ ha' => hsome _ _ a' ha'

/-- Wherever the body has an end and the server relents, an upload comes to its end. -/
theorem fromWeb_ends [Url.DomainMapping] [Mime.Associations] {file : Envelope.File}
    (hR : ∀ a b, R.may a b → b.config = a.config) :
    Returns R (ending a.config.retryPolicy count bound) (fun _ _ _ => True) (fromWeb file) [] a := by
  refine fetch_ends (fun _ _ => .done fun _ _ => trivial) fun r t₁ a₁ ha₁ => ?_
  have hconfig₁ := hR _ _ ha₁
  rcases r with e | response
  · exact .done fun _ _ => trivial
  · refine Returns.read fun a₂ ha₂ => Returns.external ⟨0, trivial⟩ fun fileId a₃ ha₃ _ => ?_
    have hconfig₃ : a₃.config = a.config := by rw [hR _ _ ha₃, hR _ _ ha₂, hconfig₁]
    refine Returns.bind (turns_end hR (by rw [hconfig₃])) fun r _ _ _ => ?_
    cases r <;> exact .done fun _ _ => trivial

/-- Then a part that has failed for good is the last that was sent, and the answer is an error. -/
theorem fromWeb_fails [Url.DomainMapping] [Mime.Associations] {file : Envelope.File}
    (hR : ∀ a b, R.may a b → b.config = a.config) :
    Returns R (ending a.config.retryPolicy count bound)
      (fun r t _ => ∀ t₁ e t₂, t = t₁ ++ e :: t₂ → Failure a.config.retryPolicy t₁ e →
        calls t₂ = [] ∧ ∃ err, r = .error err) (fromWeb file) [] a := by
  refine (fromWeb_ends hR).by_run.mono ?_
  rintro r _ b ⟨es, rfl, hrun, -⟩ t₁ e t₂ ht he
  subst ht
  obtain ⟨hcalls, herror⟩ := fromWeb_stops hR hrun he
  exact ⟨hcalls, herror r rfl⟩

end Telebridge.Upload
