import Telebridge.Proofs.Program.Turns
import Telebridge.Session.Store
set_option autoImplicit false

/-! # The store when a write is rejected

What loading, saving and flushing do in runs, with the store of the account as it was before and as it
is afterwards. A session is taken out of memory before it is written, and it is not put back when the
profile rejects it: the error is reported, and what can be loaded then is what the profile has
(`load_after_rejection_iff`). -/

namespace Telebridge.Store

open Program

variable {R : Others}

/-- The others leave the store alone, and the account keeps its profile. -/
def Untouched (R : Others) : Prop :=
  ∀ a b, R.may a b → b.store = a.store ∧ b.profile = a.profile

/-! ## The operations in runs -/

theorem currentProfile_done {profile : Profile} {a b : Account} {t : List Event}
    (hR : Untouched R) (h : Run R currentProfile a t (.done profile) b) :
    t = [.answered (.profile a.profile) profile] ∧ b.store = a.store ∧ b.profile = a.profile := by
  obtain ⟨x, hx, rfl, hb⟩ := h.currentProfile_done
  obtain ⟨hstore, hprofile⟩ := hR _ _ (R.trans hx hb)
  exact ⟨by rw [(hR _ _ hx).2], hstore, hprofile⟩

/-- The error with which the profile rejects a write. -/
def rejection? : Event → Option GatewayError
  | .answered (.setMetadata _ _) (.error e) => some e
  | _ => none

/-- What is loaded from an account: what is held in memory, or what can be loaded from the profile as it
is then. -/
inductive Loads (a : Account) (t : List Event) : Except SessionError (Option ByteArray) → Prop
  | memory {data : Option ByteArray} (h : a.store = .memory data) : Loads a t (.ok data)
  | profile {held : Option ByteArray} {profile : Profile} (h : a.store = .profile held)
      (hseen : .answered (.profile a.profile) profile ∈ t) : Loads a t (loadFrom profile held)

theorem Loads.profile_inv {a : Account} {t : List Event} {x : Except SessionError (Option ByteArray)}
    {held : Option ByteArray} (h : Loads a t x) (hs : a.store = .profile held) :
    ∃ profile, x = loadFrom profile held ∧ .answered (.profile a.profile) profile ∈ t := by
  cases h with
  | memory h =>
    rw [hs] at h
    cases h
  | profile h hseen =>
    rw [hs] at h
    cases h
    exact ⟨_, rfl, hseen⟩

/-- Loading changes nothing and writes nothing. -/
theorem load_done {x : Except SessionError (Option ByteArray)} {a b : Account} {t : List Event}
    (hR : Untouched R) (h : Run R load a t (.done x) b) :
    (b.store = a.store ∧ b.profile = a.profile) ∧ (∀ y ∈ t, rejection? y = none) ∧ Loads a t x := by
  obtain ⟨store, t₁, t₂, a₁, rfl, hread, h₁⟩ := h.bind_done
  obtain ⟨rfl, a₂, ha₂, rfl, ha₁⟩ := hread.read_done
  obtain ⟨hstore₁, hprofile₁⟩ := hR _ _ (R.trans ha₂ ha₁)
  have hstore₂ := (hR _ _ ha₂).1
  cases hs : a₂.store with
  | memory data =>
    simp only [hs] at h₁
    obtain ⟨rfl, hx, hb⟩ := h₁.done_inv
    cases hx
    obtain ⟨hstore, hprofile⟩ := hR _ _ hb
    exact ⟨⟨hstore.trans hstore₁, hprofile.trans hprofile₁⟩, by simp,
      .memory (hstore₂.symm.trans hs)⟩
  | profile held =>
    simp only [hs] at h₁
    obtain ⟨profile, t₃, t₄, a₃, rfl, hprofile, h₂⟩ := h₁.bind_done
    obtain ⟨rfl, hstore₃, hprofile₃⟩ := currentProfile_done hR hprofile
    obtain ⟨rfl, hx, hb⟩ := h₂.done_inv
    cases hx
    obtain ⟨hstore, hprofile⟩ := hR _ _ hb
    refine ⟨⟨by rw [hstore, hstore₃, hstore₁], by rw [hprofile, hprofile₃, hprofile₁]⟩, ?_,
      .profile (hstore₂.symm.trans hs) ?_⟩
    · simp [rejection?]
    · simp [hprofile₁]

/-- Writing a session gives the profile's answer. -/
theorem write_done {data : ByteArray} {r : Except SessionError Unit} {a b : Account}
    {t : List Event} (hR : Untouched R) (h : Run R (write data) a t (.done r) b) :
    ∃ answer, t = [.answered (.setMetadata a.profile
        (Table.ofList [(MetadataKey.session, encode data)])) answer] ∧
      r = answer.mapError .gateway ∧ b.store = a.store ∧ b.profile = a.profile := by
  obtain ⟨id, t₁, t₂, a₁, rfl, hread, h₁⟩ := h.bind_done
  obtain ⟨rfl, a₂, ha₂, rfl, ha₁⟩ := hread.read_done
  obtain ⟨answer, t₃, t₄, a₃, rfl, hset, h₂⟩ := h₁.bind_done
  obtain ⟨rfl, ha₃⟩ := hset.external_done
  have hanswer : t₄ = [] ∧ r = answer.mapError .gateway ∧ R.may a₃ b := by
    cases answer with
    | ok u =>
      obtain ⟨rfl, hr, hb⟩ := h₂.done_inv
      cases hr
      exact ⟨rfl, rfl, hb⟩
    | error e =>
      obtain ⟨rfl, hr, hb⟩ := h₂.done_inv
      cases hr
      exact ⟨rfl, rfl, hb⟩
  obtain ⟨rfl, rfl, hb⟩ := hanswer
  obtain ⟨hstore, hprofile⟩ := hR _ _ (R.trans ha₂ (R.trans ha₁ (R.trans ha₃ hb)))
  refine ⟨answer, ?_, rfl, hstore, hprofile⟩
  rw [(hR _ _ ha₂).2]
  rfl

/-- A session is dropped from memory, and written. -/
theorem release_write_done {data : ByteArray} {r : Except SessionError Unit} {a b : Account}
    {t : List Event} (hR : Untouched R)
    (h : Run R ((update fun a => { a with store := .profile none }) >>= fun _ => write data) a t
      (.done r) b) :
    ∃ answer, t = [.answered (.setMetadata a.profile
        (Table.ofList [(MetadataKey.session, encode data)])) answer] ∧
      r = answer.mapError .gateway ∧ b.store = .profile none ∧ b.profile = a.profile := by
  obtain ⟨_, t₁, t₂, a₁, rfl, hupdate, hwrite⟩ := h.bind_done
  obtain ⟨rfl, a₂, ha₂, ha₁⟩ := hupdate.update_done
  obtain ⟨answer, rfl, hr, hstore, hprofile⟩ := write_done hR hwrite
  obtain ⟨hstore₁, hprofile₁⟩ := hR _ _ ha₁
  have hprofile₂ : a₁.profile = a.profile := hprofile₁.trans (hR _ _ ha₂).2
  exact ⟨answer, by rw [hprofile₂]; rfl, hr, hstore.trans hstore₁, hprofile.trans hprofile₂⟩

/-- An operation that may write the session to the profile. -/
inductive Writes : Program (Except SessionError Unit) → Prop
  | save (data : ByteArray) : Writes (save data)
  | flush : Writes flush

/-- After an operation whose write was rejected nothing is held in memory, and the error is given. -/
theorem Writes.rejected {p : Program (Except SessionError Unit)} {r : Except SessionError Unit}
    {a b : Account} {t : List Event} {e : GatewayError} (hp : Writes p) (hR : Untouched R)
    (h : Run R p a t (.done r) b) (hrejected : ∃ x ∈ t, rejection? x = some e) :
    r = .error (.gateway e) ∧ (∃ held, a.store = .profile held) ∧ b.store = .profile none ∧
      b.profile = a.profile := by
  obtain ⟨x, hx, hxe⟩ := hrejected
  have hwritten {data : ByteArray} {a₁ : Account} {u : List Event}
      (h : Run R ((update fun a => { a with store := .profile none }) >>= fun _ => write data) a₁ u
        (.done r) b) (hu : x ∈ u) :
      r = .error (.gateway e) ∧ b.store = .profile none ∧ b.profile = a₁.profile := by
    obtain ⟨answer, rfl, rfl, hstore, hprofile⟩ := release_write_done hR h
    obtain rfl := List.mem_singleton.1 hu
    cases answer with
    | ok => cases hxe
    | error e' =>
      cases hxe
      exact ⟨rfl, hstore, hprofile⟩
  cases hp with
  | save data =>
    obtain ⟨store, t₁, t₂, a₁, rfl, hread, h₁⟩ := h.bind_done
    obtain ⟨rfl, a₂, ha₂, rfl, ha₁⟩ := hread.read_done
    obtain ⟨-, hprofile₁⟩ := hR _ _ (R.trans ha₂ ha₁)
    have hstore₂ := (hR _ _ ha₂).1
    cases hs : a₂.store with
    | memory data' =>
      simp only [hs] at h₁
      obtain ⟨_, t₃, t₄, a₃, rfl, hupdate, h₂⟩ := h₁.bind_done
      obtain ⟨rfl, -⟩ := hupdate.update_done
      obtain ⟨rfl, -, -⟩ := h₂.done_inv
      cases hx
    | profile held =>
      simp only [hs] at h₁
      obtain ⟨profile, t₃, t₄, a₃, rfl, hprofile, h₂⟩ := h₁.bind_done
      obtain ⟨rfl, hstore₃, hprofile₃⟩ := currentProfile_done hR hprofile
      -- reading the profile is no write
      have hx₄ : x ∈ t₄ := by
        rcases List.mem_cons.1 hx with rfl | hx
        · cases hxe
        · exact hx
      split at h₂
      · obtain ⟨_, t₅, t₆, a₄, rfl, hupdate, h₃⟩ := h₂.bind_done
        obtain ⟨rfl, -⟩ := hupdate.update_done
        obtain ⟨rfl, -, -⟩ := h₃.done_inv
        cases hx₄
      · obtain ⟨hr, hstore, hprofile⟩ := hwritten h₂ hx₄
        exact ⟨hr, ⟨held, hstore₂.symm.trans hs⟩, hstore,
          hprofile.trans (hprofile₃.trans hprofile₁)⟩
  | flush =>
    obtain ⟨store, t₁, t₂, a₁, rfl, hread, h₁⟩ := h.bind_done
    obtain ⟨rfl, a₂, ha₂, rfl, ha₁⟩ := hread.read_done
    obtain ⟨-, hprofile₁⟩ := hR _ _ (R.trans ha₂ ha₁)
    have hstore₂ := (hR _ _ ha₂).1
    rcases hs : a₂.store with data | _ | data
    · simp only [hs] at h₁
      obtain ⟨rfl, -, -⟩ := h₁.done_inv
      cases hx
    · simp only [hs] at h₁
      obtain ⟨rfl, -, -⟩ := h₁.done_inv
      cases hx
    · simp only [hs] at h₁
      obtain ⟨hr, hstore, hprofile⟩ := hwritten h₁ hx
      exact ⟨hr, ⟨some data, hstore₂.symm.trans hs⟩, hstore, hprofile.trans hprofile₁⟩

/-! ## Loading before and after -/

/-- The session is loaded, an operation is carried out, and the session is loaded again. -/
def around (p : Program (Except SessionError Unit)) :
    Program (Except SessionError (Option ByteArray) × Except SessionError Unit ×
      Except SessionError (Option ByteArray)) := do
  let before ← load
  let r ← p
  let after ← load
  return (before, r, after)

/-- What the profile has is what is loaded, unless a session is held that is not empty and differs. -/
theorem loadFrom_none_eq_iff (profile : Profile) (held : Option ByteArray) :
    loadFrom profile none = loadFrom profile held ↔
      ∀ data, held = some data → data.isEmpty = false →
        loadFrom profile none = .ok (some data) := by
  cases held with
  | none => simp
  | some data =>
    cases hdata : data.isEmpty with
    | true =>
      have hhidden : loadFrom profile (some data) = loadFrom profile none := by
        simp [loadFrom, Option.filter, hdata]
      simp [hhidden, hdata]
    | false =>
      have hheld : loadFrom profile (some data) = .ok (some data) := by
        simp [loadFrom, Option.filter, hdata]
      simp [hheld, hdata]

/-- When the profile rejects what an operation writes, the operation gives the error, and what is loaded
afterwards is what the profile has. That is the same as before exactly if no session was held in memory,
or only an empty one, or if the profile has the one that was held. -/
theorem load_after_rejection_iff {R : Others} (hR : Untouched R)
    {p : Program (Except SessionError Unit)} (hp : Writes p)
    {before after : Except SessionError (Option ByteArray)} {r : Except SessionError Unit}
    {a b : Account} {t : List Event} (h : Run R (around p) a t (.done (before, r, after)) b)
    {e : GatewayError} (hrejected : ∃ x ∈ t, rejection? x = some e) {profile : Profile}
    (hsame : ∀ seen, .answered (.profile a.profile) seen ∈ t → seen = profile) :
    r = .error (.gateway e) ∧ ∃ held, a.store = .profile held ∧ before = loadFrom profile held ∧
      after = loadFrom profile none ∧
      (after = before ↔ ∀ data, held = some data → data.isEmpty = false →
        loadFrom profile none = .ok (some data)) := by
  obtain ⟨_, t₁, u₁, a₁, rfl, hbefore, h₁⟩ := h.bind_done
  obtain ⟨_, t₂, u₂, a₂, rfl, hop, h₂⟩ := h₁.bind_done
  obtain ⟨_, t₃, u₃, a₃, rfl, hafter, h₃⟩ := h₂.bind_done
  obtain ⟨rfl, hresult, -⟩ := h₃.done_inv
  cases hresult
  obtain ⟨⟨hstore₁, hprofile₁⟩, hspares₁, hloaded₁⟩ := load_done hR hbefore
  obtain ⟨-, hspares₃, hloaded₃⟩ := load_done hR hafter
  -- it is the operation that writes
  have hwritten : ∃ x ∈ t₂, rejection? x = some e := by
    obtain ⟨x, hx, hxe⟩ := hrejected
    simp only [List.mem_append, List.not_mem_nil, or_false] at hx
    obtain hx | hx | hx := hx
    · rw [hspares₁ x hx] at hxe
      cases hxe
    · exact ⟨x, hx, hxe⟩
    · rw [hspares₃ x hx] at hxe
      cases hxe
  obtain ⟨hr, ⟨held, hheld⟩, hstore₂, hprofile₂⟩ := hp.rejected hR hop hwritten
  rw [hstore₁] at hheld
  obtain ⟨seen₁, rfl, hseen₁⟩ := hloaded₁.profile_inv hheld
  obtain ⟨seen₃, rfl, hseen₃⟩ := hloaded₃.profile_inv hstore₂
  rw [hprofile₂, hprofile₁] at hseen₃
  obtain rfl := hsame seen₁ (by simp [hseen₁])
  obtain rfl := hsame seen₃ (by simp [hseen₃])
  exact ⟨hr, held, hheld, rfl, rfl, loadFrom_none_eq_iff _ held⟩

/-! ## A lost session -/

/-- The session that is held in `holding`. -/
def twoBytes : ByteArray := ⟨#[1, 2]⟩

/-- An account that holds a session back. -/
def holding : Account := { config := default, profile := 0, store := .profile (some twoBytes) }

/-- A profile that has not been created yet. -/
def uncreated : Profile := { botId := 0 }

/-- The error of a gateway without its database. -/
def noDatabase : GatewayError := { id := "db.down", code := 503, detail := "no db" }

/-- The session is loaded, flushed without success, and loaded again. -/
def rejectedFlush : List Event :=
  [.answered (.profile 0) uncreated,
    .answered (.setMetadata 0 (Table.ofList [(MetadataKey.session, encode twoBytes)]))
      (.error noDatabase),
    .answered (.profile 0) uncreated]

theorem run_rejectedFlush : ∃ b, Run Others.nobody (around flush) holding rejectedFlush
    (.done (.ok (some twoBytes), .error (.gateway noDatabase), .ok none)) b := by
  let emptied : Account := { holding with store := .profile none }
  -- the store and the id of the profile are read, then the profile
  have hbefore : Run Others.nobody load holding [.answered (.profile 0) uncreated]
      (.done (.ok (some twoBytes))) holding := by
    refine .silent ⟨.profile (some twoBytes), ⟨rfl, rfl⟩, rfl⟩ ?_
    refine .silent ⟨0, ⟨rfl, rfl⟩, rfl⟩ ?_
    exact .single ⟨uncreated, ⟨rfl, rfl⟩, rfl⟩
  have hafter : Run Others.nobody load emptied [.answered (.profile 0) uncreated]
      (.done (.ok none)) emptied := by
    refine .silent ⟨.profile none, ⟨rfl, rfl⟩, rfl⟩ ?_
    refine .silent ⟨0, ⟨rfl, rfl⟩, rfl⟩ ?_
    exact .single ⟨uncreated, ⟨rfl, rfl⟩, rfl⟩
  have hflush : Run Others.nobody flush holding
      [.answered (.setMetadata 0 (Table.ofList [(MetadataKey.session, encode twoBytes)]))
        (.error noDatabase)] (.done (.error (.gateway noDatabase))) emptied := by
    refine .silent ⟨.profile (some twoBytes), ⟨rfl, rfl⟩, rfl⟩ ?_
    refine .silent ⟨(), ⟨rfl, rfl⟩, rfl⟩ ?_
    refine .silent ⟨0, ⟨rfl, rfl⟩, rfl⟩ ?_
    exact .single ⟨.error noDatabase, ⟨rfl, rfl⟩, rfl⟩
  exact ⟨emptied, hbefore.bind (hflush.bind (hafter.bind (.refl _ emptied)))⟩

theorem rejected_rejectedFlush : ∃ x ∈ rejectedFlush, rejection? x = some noDatabase :=
  ⟨_, List.mem_cons_of_mem _ List.mem_cons_self, rfl⟩

theorem same_rejectedFlush (seen : Profile)
    (h : .answered (.profile holding.profile) seen ∈ rejectedFlush) : seen = uncreated := by
  rcases h with _ | ⟨_, h⟩
  · rfl
  · rcases List.mem_cons.1 h with h | h
    · cases congrArg rejection? h
    · cases List.mem_singleton.1 h
      rfl

/-- A session that is held is lost when the profile rejects it. -/
theorem held_session_lost :
    ¬ ∀ (p : Program (Except SessionError Unit)) (a b : Account) (t : List Event)
      (before after : Except SessionError (Option ByteArray)) (r : Except SessionError Unit)
      (e : GatewayError) (profile : Profile),
      Writes p → Run Others.nobody (around p) a t (.done (before, r, after)) b →
        (∃ x ∈ t, rejection? x = some e) →
        (∀ seen, .answered (.profile a.profile) seen ∈ t → seen = profile) →
        r = .error (.gateway e) ∧ after = before := by
  intro h
  obtain ⟨b, hrun⟩ := run_rejectedFlush
  have hsame := (h flush holding b rejectedFlush _ _ _ noDatabase uncreated .flush hrun
    rejected_rejectedFlush same_rejectedFlush).2
  cases hsame

/-- The session was held, and the profile has none. -/
theorem load_after_rejectedFlush :
    Untouched Others.nobody ∧ Writes flush ∧ (∃ x ∈ rejectedFlush, rejection? x = some noDatabase) ∧
    (∀ seen, .answered (.profile holding.profile) seen ∈ rejectedFlush → seen = uncreated) ∧
    ∃ before r after b, Run Others.nobody (around flush) holding rejectedFlush
        (.done (before, r, after)) b ∧
      r = .error (.gateway noDatabase) ∧ after = loadFrom uncreated none ∧ after ≠ before := by
  have hR : Untouched Others.nobody := by
    rintro a _ rfl
    exact ⟨rfl, rfl⟩
  obtain ⟨b, hrun⟩ := run_rejectedFlush
  obtain ⟨hr, held, hheld, -, hafter, hsame⟩ := load_after_rejection_iff hR .flush hrun
    rejected_rejectedFlush same_rejectedFlush
  refine ⟨hR, .flush, rejected_rejectedFlush, same_rejectedFlush, _, _, _, b, hrun, hr, hafter,
    fun h => ?_⟩
  cases hheld
  cases hsame.1 h twoBytes rfl rfl

end Telebridge.Store
