import Telebridge.Proofs.Encoding.Base64
import Telebridge.Proofs.Program.Finished
import Telebridge.Proofs.Program.Return
import Telebridge.Proofs.Session.Persist
import Telebridge.Proofs.Session.Store
set_option autoImplicit false

/-! # The latest session that was saved

A session is held back until the profile has been created, and is stored in its metadata from then on.
Wherever it is, what is loaded is what was saved last, byte by byte (`load_returns_latest`). The gateway
takes what is written, and nobody else writes the session. -/

namespace Telebridge.Store

open Program Session

/-! ## The value in the metadata -/

/-- What is written is what is read, if it is not empty. -/
theorem decode_encode {data : ByteArray} (h : data.isEmpty = false) :
    decode (encode data) = .ok (some data) := by
  have hletters := Base64.decodeStripped?_append Base64.proper_standard data.data.toList 0
  rw [List.replicate_zero, List.append_nil] at hletters
  -- only the empty session has an empty value
  have hvalue : (encode data).isEmpty = false := by
    rw [Bool.eq_false_iff, Ne, String.isEmpty_iff]
    intro hempty
    have hnone : Base64.encode Base64.standard data.data.toList = [] := by
      simpa [encode] using hempty
    rw [hnone] at hletters
    have hbytes : data.data.toList = [] := (Option.some.inj hletters).symm
    simp [ByteArray.isEmpty, ByteArray.size, Array.toList_eq_nil_iff.1 hbytes] at h
  simp only [decode, hvalue, Bool.false_eq_true, if_false]
  simp only [encode, String.toList_ofList, hletters, Array.toArray_toList]

/-! ## The operations on a profile -/

section

variable {R : Others} {held : Option ByteArray} {a b : Account} {t : List Event}

/-- A session that is written to the profile. -/
def writing (id : ProfileId) (data : ByteArray) (answer : Except GatewayError Unit) : Event :=
  .answered (.setMetadata id (Table.ofList [(MetadataKey.session, encode data)])) answer

/-- Loading looks at the profile. -/
theorem load_profile_done {x : Except SessionError (Option ByteArray)} (hR : Untouched R)
    (ha : a.store = .profile held) (h : Run R load a t (.done x) b) :
    b.store = a.store ∧ b.profile = a.profile ∧
      ∃ profile, t = [.answered (.profile a.profile) profile] ∧ x = loadFrom profile held := by
  obtain ⟨a₁, ha₁, h₁⟩ := Run.read_bind_iff.1 h
  obtain ⟨hstore, hid⟩ := hR _ _ ha₁
  rw [hstore, ha] at h₁
  obtain ⟨profile, t₁, t₂, a₂, rfl, hprofile, h₂⟩ := Run.bind_done h₁
  obtain ⟨rfl, hstore₂, hid₂⟩ := currentProfile_done hR hprofile
  obtain ⟨rfl, rfl, hb⟩ := Run.done_iff.1 h₂
  obtain ⟨hstore₃, hid₃⟩ := hR _ _ hb
  refine ⟨(hstore₃.trans hstore₂).trans hstore, (hid₃.trans hid₂).trans hid, profile, ?_, rfl⟩
  rw [hid, List.append_nil]

/-- Saving looks at the profile. The session is held back if the profile has not been created, and
written otherwise. -/
theorem save_profile_done {data : ByteArray} {r : Except SessionError Unit} (hR : Untouched R)
    (ha : a.store = .profile held) (h : Run R (save data) a t (.done r) b) :
    b.profile = a.profile ∧ ∃ profile,
      (profile.botId = 0 ∧ t = [.answered (.profile a.profile) profile] ∧
          b.store = .profile (some data)) ∨
        (profile.botId ≠ 0 ∧ b.store = .profile none ∧
          ∃ answer, t = [.answered (.profile a.profile) profile, writing a.profile data answer]) := by
  obtain ⟨a₁, ha₁, h₁⟩ := Run.read_bind_iff.1 h
  obtain ⟨hstore, hid⟩ := hR _ _ ha₁
  rw [hstore, ha] at h₁
  obtain ⟨profile, t₁, t₂, a₂, rfl, hprofile, h₂⟩ := Run.bind_done h₁
  obtain ⟨rfl, hstore₂, hid₂⟩ := currentProfile_done hR hprofile
  split at h₂
  · next hnew =>
    obtain ⟨a₃, ha₃, h₃⟩ := Run.update_bind_iff.1 h₂
    obtain ⟨rfl, -, hb⟩ := Run.done_iff.1 h₃
    obtain ⟨hstore₄, hid₄⟩ := hR _ _ hb
    refine ⟨hid₄.trans ((hR _ _ ha₃).2.trans (hid₂.trans hid)), profile, .inl ⟨hnew, ?_, hstore₄⟩⟩
    rw [hid, List.append_nil]
  · next hcreated =>
    obtain ⟨answer, rfl, -, hstore₃, hid₃⟩ := release_write_done hR h₂
    refine ⟨hid₃.trans (hid₂.trans hid), profile, .inr ⟨hcreated, hstore₃, answer, ?_⟩⟩
    rw [hid₂, hid]
    rfl

/-- Flushing writes what is held, if anything is. -/
theorem flush_profile_done {r : Except SessionError Unit} (hR : Untouched R)
    (ha : a.store = .profile held) (h : Run R flush a t (.done r) b) :
    b.profile = a.profile ∧ b.store = .profile none ∧
      ((held = none ∧ t = []) ∨ ∃ data answer, held = some data ∧ t = [writing a.profile data answer]) := by
  obtain ⟨a₁, ha₁, h₁⟩ := Run.read_bind_iff.1 h
  obtain ⟨hstore, hid⟩ := hR _ _ ha₁
  rw [hstore, ha] at h₁
  cases held with
  | none =>
    obtain ⟨rfl, -, hb⟩ := Run.done_iff.1 h₁
    obtain ⟨hstore₂, hid₂⟩ := hR _ _ hb
    exact ⟨hid₂.trans hid, hstore₂.trans (hstore.trans ha), .inl ⟨rfl, rfl⟩⟩
  | some data =>
    obtain ⟨answer, rfl, -, hstore₂, hid₂⟩ := release_write_done hR h₁
    exact ⟨hid₂.trans hid, hstore₂, .inr ⟨data, answer, rfl, by rw [hid]; rfl⟩⟩

end

/-! ## Uses of the store -/

/-- What is done with the store. -/
inductive Use where
  | save (data : ByteArray)
  | flush
  | load

/-- Uses the store; what it gives does not matter here. -/
def Use.run : Use → Program Unit
  | .save data => do let _ ← Store.save data
  | .flush => do let _ ← Store.flush
  | .load => do let _ ← Store.load

/-- No empty session is saved, and nothing is flushed before the profile has been created. -/
def Use.Allowed (created : Bool) : Use → Prop
  | .save data => data.isEmpty = false
  | .flush => created = true
  | .load => True

/-- The session that a use saves. -/
def Use.saved? : Use → Option ByteArray
  | .save data => some data
  | .flush | .load => none

/-- The session that was saved last; the latest use comes first. -/
def latest (past : List Use) : Option ByteArray :=
  past.findSome? Use.saved?

/-- The surroundings of a store. What is written is taken and merged, and the profile shows the session
that was written last, or the one that it had at first. The profile may have no bot id if it was not
created before, and may have one if it is created afterwards. -/
def gateway (id : ProfileId) (m : Metadata) (created created' : Bool) : Environment
  | t, .answered (.profile id') profile => id' = id →
    profile.metadata.get? MetadataKey.session = (metadataAfter id m t).get? MetadataKey.session ∧
      (profile.botId = 0 → created = false) ∧ (profile.botId ≠ 0 → created' = true)
  | _, e => Taken e

/-- The store was used in this way, and all this was shown. The profile may be created between two uses
and during one, and stays so. -/
inductive Used (R : Others) (a₀ : Account) (m : Metadata) :
    List Use → List Event → Bool → Account → Prop
  | start {created : Bool} {a : Account} (h : R.may a₀ a) : Used R a₀ m [] [] created a
  | create {past : List Use} {t : List Event} {a : Account} (h : Used R a₀ m past t false a) :
      Used R a₀ m past t true a
  | use {past : List Use} {t u : List Event} {created created' : Bool} {a b : Account} {use : Use}
      (h : Used R a₀ m past t created a) (hallowed : use.Allowed created)
      (hcreated : created = true → created' = true) (hrun : Run R use.run a u (.done ()) b)
      (hgateway : (gateway a₀.profile m created created').Allows t u) :
      Used R a₀ m (use :: past) (t ++ u) created' b

/-! ## Where the session is -/

/-- The session in the metadata of a profile after a history. -/
def storedSession (id : ProfileId) (m : Metadata) (t : List Event) : Option String :=
  (metadataAfter id m t).get? MetadataKey.session

/-- Where the latest session is: held back, or stored in a profile that was created. As long as there is
none, the profile has what it had at first. -/
inductive Placed (id : ProfileId) (m : Metadata) (t : List Event) (created : Bool) :
    Option ByteArray → SessionStore → Prop
  | fresh (hstored : storedSession id m t = m.get? MetadataKey.session) :
      Placed id m t created none (.profile none)
  | held {data : ByteArray} (hdata : data.isEmpty = false) :
      Placed id m t created (some data) (.profile (some data))
  | stored {data : ByteArray} (hdata : data.isEmpty = false) (hcreated : created = true)
      (hstored : storedSession id m t = some (encode data)) :
      Placed id m t created (some data) (.profile none)

section

variable {R : Others} {id : ProfileId} {m : Metadata} {t u : List Event} {created created' : Bool}
  {data? : Option ByteArray} {store : SessionStore} {a b : Account}

theorem storedSession_read (profile : Profile) :
    storedSession id m (t ++ [.answered (.profile id) profile]) = storedSession id m t := by
  rw [storedSession, metadataAfter_append, metadataAfter_singleton]
  rfl

/-- What is taken can be read. -/
theorem storedSession_writing (data : ByteArray) :
    storedSession id m (t ++ [writing id data (.ok ())]) = some (encode data) := by
  have hvalue : (Table.ofList [(MetadataKey.session, encode data)]).get? MetadataKey.session =
      some (encode data) := by
    show ((Table.empty : Metadata).insert MetadataKey.session (encode data)).get? _ = _
    rw [Table.get?_insert, if_pos rfl]
  rw [storedSession, metadataAfter_append, metadataAfter_singleton]
  simp only [writing, merge, if_true, Table.get?_insertAll_toList, hvalue, Option.some_or]

theorem Placed.exists_held (h : Placed id m t created data? store) : ∃ held, store = .profile held := by
  cases h <;> exact ⟨_, rfl⟩

/-- Nothing moves as long as nothing is written. -/
theorem Placed.later (h : Placed id m t created data? store) (hcreated : created = true → created' = true)
    (hstored : storedSession id m u = storedSession id m t) : Placed id m u created' data? store := by
  cases h with
  | fresh h => exact .fresh (hstored.trans h)
  | held hdata => exact .held hdata
  | stored hdata hc h => exact .stored hdata (hcreated hc) (hstored.trans h)

theorem Placed.save {data : ByteArray} {r : Except SessionError Unit} (hR : Untouched R)
    (h : Placed a.profile m t created data? a.store) (hdata : data.isEmpty = false)
    (hrun : Run R (save data) a u (.done r) b)
    (hgateway : (gateway a.profile m created created').Allows t u) :
    b.profile = a.profile ∧ Placed a.profile m (t ++ u) created' (some data) b.store := by
  obtain ⟨held, hheld⟩ := h.exists_held
  obtain ⟨hid, profile, ⟨-, -, hstore⟩ | ⟨hbot, hstore, answer, rfl⟩⟩ := save_profile_done hR hheld hrun
  · rw [hstore]
    exact ⟨hid, .held hdata⟩
  · obtain ⟨hread, hwrite, -⟩ := hgateway
    have hcreated : created' = true := (hread rfl).2.2 hbot
    obtain rfl : answer = .ok () := hwrite
    rw [hstore, List.append_cons]
    exact ⟨hid, .stored hdata hcreated (storedSession_writing data)⟩

theorem Placed.flush {r : Except SessionError Unit} (hR : Untouched R)
    (h : Placed a.profile m t true data? a.store) (hrun : Run R flush a u (.done r) b)
    (hgateway : (gateway a.profile m true created').Allows t u) :
    b.profile = a.profile ∧ Placed a.profile m (t ++ u) true data? b.store := by
  obtain ⟨held, hheld⟩ := h.exists_held
  obtain ⟨hid, hstore, ⟨rfl, rfl⟩ | ⟨data, answer, rfl, rfl⟩⟩ := flush_profile_done hR hheld hrun
  · rw [hstore, ← hheld, List.append_nil]
    exact ⟨hid, h⟩
  · obtain rfl : answer = .ok () := hgateway.1
    rw [hheld] at h
    cases h with
    | held hdata =>
      rw [hstore]
      exact ⟨hid, .stored hdata rfl (storedSession_writing data)⟩

theorem Placed.load {x : Except SessionError (Option ByteArray)} (hR : Untouched R)
    (h : Placed a.profile m t created data? a.store) (hrun : Run R load a u (.done x) b) :
    b.profile = a.profile ∧ Placed a.profile m (t ++ u) created data? b.store := by
  obtain ⟨held, hheld⟩ := h.exists_held
  obtain ⟨hstore, hid, profile, rfl, -⟩ := load_profile_done hR hheld hrun
  rw [hstore]
  exact ⟨hid, h.later id (storedSession_read profile)⟩

/-- Every use knows where the latest session is. -/
theorem Placed.use {past : List Use} {use : Use} (hR : Untouched R)
    (h : Placed a.profile m t created (latest past) a.store) (hallowed : use.Allowed created)
    (hcreated : created = true → created' = true) (hrun : Run R use.run a u (.done ()) b)
    (hgateway : (gateway a.profile m created created').Allows t u) :
    b.profile = a.profile ∧ Placed a.profile m (t ++ u) created' (latest (use :: past)) b.store := by
  cases use with
  | save data =>
    obtain ⟨r, -, hrun⟩ := Run.map_iff.1 hrun
    exact h.save hR hallowed hrun hgateway
  | flush =>
    obtain ⟨r, -, hrun⟩ := Run.map_iff.1 hrun
    obtain rfl : created = true := hallowed
    obtain ⟨hid, h⟩ := h.flush hR hrun hgateway
    exact ⟨hid, h.later hcreated rfl⟩
  | load =>
    obtain ⟨x, -, hrun⟩ := Run.map_iff.1 hrun
    obtain ⟨hid, h⟩ := h.load hR hrun
    exact ⟨hid, h.later hcreated rfl⟩

theorem Used.placed {a₀ : Account} {past : List Use} (hR : Untouched R)
    (h₀ : a₀.store = .profile none) (h : Used R a₀ m past t created a) :
    a.profile = a₀.profile ∧ Placed a₀.profile m t created (latest past) a.store := by
  induction h with
  | start ha =>
    obtain ⟨hstore, hid⟩ := hR _ _ ha
    rw [hstore, h₀]
    exact ⟨hid, .fresh rfl⟩
  | create _ ih => exact ⟨ih.1, ih.2.later (fun _ => rfl) rfl⟩
  | use _ hallowed hcreated hrun hgateway ih =>
    obtain ⟨hid, hplaced⟩ := ih
    rw [← hid] at hplaced hgateway
    obtain ⟨hid', hplaced⟩ := hplaced.use hR hallowed hcreated hrun hgateway
    rw [hid] at hid' hplaced
    exact ⟨hid', hplaced⟩

/-! ## Loading -/

/-- Loading comes to its end, since the profile can be read. -/
theorem load_ends (hcreated : created = true → created' = true) (a : Account) :
    Returns R (gateway id m created created') (fun _ _ _ => True) load t a := by
  refine Returns.read fun a₁ _ => ?_
  cases a₁.store with
  | memory data => exact Returns.done fun _ _ => trivial
  | profile held =>
    refine Returns.currentProfile (fun id' => ?_) fun _ _ _ _ _ _ => Returns.done fun _ _ => trivial
    refine ⟨{ botId := if created then 1 else 0, metadata := metadataAfter id m t }, fun _ => ⟨rfl, ?_⟩⟩
    cases created with
    | false => exact ⟨fun _ => rfl, fun h => absurd rfl h⟩
    | true =>
      have hbot : (1 : Int64) ≠ 0 := by decide
      exact ⟨fun h => absurd h hbot, fun _ => hcreated rfl⟩

/-- However a store was used, and whenever its profile was created: what is loaded next is the session
that was saved last, byte by byte, whether it is held back or stored. Before the first one it is what the
metadata held at first, or nothing as long as the profile has not been created. -/
theorem load_returns_latest {a₀ : Account} {past : List Use} (hR : Untouched R)
    (h₀ : a₀.store = .profile none) (h : Used R a₀ m past t created a)
    (hcreated : created = true → created' = true) :
    Returns R (gateway a₀.profile m created created') (fun x _ _ =>
      match latest past with
      | some data => x = .ok (some data)
      | none => (created = false ∧ x = .ok none) ∨
          (created' = true ∧ x = decode ((m.get? MetadataKey.session).getD "")))
      load t a := by
  obtain ⟨hid, hplaced⟩ := h.placed hR h₀
  refine (load_ends hcreated a).by_run.mono ?_
  rintro x _ b ⟨u, rfl, hrun, hgateway⟩
  obtain ⟨held, hheld⟩ := hplaced.exists_held
  obtain ⟨-, -, profile, rfl, rfl⟩ := load_profile_done hR hheld hrun
  obtain ⟨hread, -⟩ := hgateway
  obtain ⟨hshown, huncreated, hnow⟩ := hread hid
  rw [hheld] at hplaced
  generalize latest past = data? at hplaced
  cases hplaced with
  | fresh hstored =>
    by_cases hbot : profile.botId = 0
    · exact .inl ⟨huncreated hbot, by simp [loadFrom, hbot]⟩
    · refine .inr ⟨hnow hbot, ?_⟩
      have htext : profile.metadata.get? MetadataKey.session = m.get? MetadataKey.session :=
        hshown.trans hstored
      simp [loadFrom, hbot, Profile.metadataText, htext]
  | held hdata => simp [loadFrom, Option.filter, hdata]
  | stored hdata hc hstored =>
    have hbot : profile.botId ≠ 0 := by
      intro hbot
      rw [huncreated hbot] at hc
      cases hc
    have htext : profile.metadata.get? MetadataKey.session = some (encode _) := hshown.trans hstored
    simp [loadFrom, hbot, Profile.metadataText, htext, decode_encode hdata]

end

/-! ## A session that is saved early -/

/-- An account that has saved nothing. -/
def unsaved : Account := { config := default, profile := 0 }

/-- The session is saved before the profile is created, and flushed afterwards. -/
def savedEarly : List Event :=
  [.answered (.profile 0) uncreated, writing 0 twoBytes (.ok ())]

theorem used_savedEarly :
    Used Others.nobody unsaved Table.empty [.flush, .save twoBytes] savedEarly true unsaved := by
  let saved : Account := { unsaved with store := .profile (some twoBytes) }
  have hprofile : Run Others.nobody currentProfile unsaved [.answered (.profile 0) uncreated]
      (.done uncreated) unsaved :=
    Run.read_bind_iff.2 ⟨unsaved, rfl, .of_external (.profile 0) uncreated unsaved⟩
  have hhold : Run Others.nobody (update fun a => { a with store := .profile (some twoBytes) }) unsaved []
      (.done ()) saved := .of_await rfl
  have hsave : Run Others.nobody (save twoBytes) unsaved [.answered (.profile 0) uncreated]
      (.done (.ok ())) saved :=
    Run.read_bind_iff.2 ⟨unsaved, rfl, hprofile.bind (hhold.bind (.refl _ _))⟩
  have hset : Run Others.nobody (external (.setMetadata 0
      (Table.ofList [(MetadataKey.session, encode twoBytes)]))) unsaved [writing 0 twoBytes (.ok ())]
      (.done (.ok ())) unsaved := .of_external _ _ unsaved
  have hwrite : Run Others.nobody (write twoBytes) unsaved [writing 0 twoBytes (.ok ())]
      (.done (.ok ())) unsaved :=
    Run.read_bind_iff.2 ⟨unsaved, rfl, hset.bind (.refl _ _)⟩
  have hflush : Run Others.nobody flush saved [writing 0 twoBytes (.ok ())] (.done (.ok ())) unsaved :=
    Run.read_bind_iff.2 ⟨saved, rfl, Run.update_bind_iff.2 ⟨saved, rfl, hwrite⟩⟩
  have huncreated : (gateway 0 Table.empty false false).Allows [] [.answered (.profile 0) uncreated] :=
    ⟨fun _ => ⟨rfl, fun _ => rfl, fun h => absurd rfl h⟩, trivial⟩
  have htaken : (gateway 0 Table.empty true true).Allows [.answered (.profile 0) uncreated]
      [writing 0 twoBytes (.ok ())] := ⟨rfl, trivial⟩
  have hsaves : Run Others.nobody (Use.save twoBytes).run unsaved [.answered (.profile 0) uncreated]
      (.done ()) saved := hsave.bind (.refl _ _)
  have hflushes : Run Others.nobody Use.flush.run saved [writing 0 twoBytes (.ok ())] (.done ())
      unsaved := hflush.bind (.refl _ _)
  have hheld : Used Others.nobody unsaved Table.empty [.save twoBytes]
      [.answered (.profile 0) uncreated] false saved :=
    .use (.start rfl) rfl id hsaves huncreated
  exact .use hheld.create rfl id hflushes htaken

/-- The session is loaded from the profile. -/
theorem load_returns_latest_savedEarly :
    Untouched Others.nobody ∧ unsaved.store = .profile none ∧
    Used Others.nobody unsaved Table.empty [.flush, .save twoBytes] savedEarly true unsaved ∧
    latest [.flush, .save twoBytes] = some twoBytes ∧
    storedSession 0 Table.empty savedEarly = some (encode twoBytes) ∧
    Returns Others.nobody (gateway 0 Table.empty true true) (fun x _ _ => x = .ok (some twoBytes))
      load savedEarly unsaved := by
  have hR : Untouched Others.nobody := by
    rintro a _ rfl
    exact ⟨rfl, rfl⟩
  exact ⟨hR, rfl, used_savedEarly, rfl, storedSession_writing (t := [_]) twoBytes,
    load_returns_latest hR rfl used_savedEarly id⟩

end Telebridge.Store
