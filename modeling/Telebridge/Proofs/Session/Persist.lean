import Telebridge.Proofs.Data.Table
import Telebridge.Proofs.Program.Turns
import Telebridge.Proofs.Program.Conduct
import Telebridge.Session.Run
set_option autoImplicit false

/-! # What a session leaves behind

`Session.metadataAfter` is the metadata of a profile after the writes of a run, as far as the gateway
took them. A session that holds no logout tokens leaves the stored ones alone, but the access hashes
that it stores replace those that were there (`persist_done`). -/

namespace Telebridge.Session

open Program

/-! ## Metadata after a run -/

/-- The metadata of a profile after an event: what the gateway takes is merged. -/
def merge (id : ProfileId) (m : Metadata) : Event → Metadata
  | .answered (.setMetadata id' metadata) (.ok ()) =>
    if id' = id then m.insertAll metadata.toList else m
  | _ => m

/-- The metadata of a profile after the events of a run. -/
def metadataAfter (id : ProfileId) (m : Metadata) (t : List Event) : Metadata :=
  t.foldl (merge id) m

/-- The event does not write a metadata key. -/
def Spares (key : String) : Event → Prop
  | .answered (.setMetadata _ metadata) _ => metadata.get? key = none
  | _ => True

/-- If metadata is written, the gateway takes it. -/
def Taken : Event → Prop
  | .answered (.setMetadata _ _) r => r = .ok ()
  | _ => True

theorem metadataAfter_append (id : ProfileId) (m : Metadata) (t u : List Event) :
    metadataAfter id m (t ++ u) = metadataAfter id (metadataAfter id m t) u :=
  List.foldl_append

theorem metadataAfter_singleton (id : ProfileId) (m : Metadata) (e : Event) :
    metadataAfter id m [e] = merge id m e := rfl

theorem get?_merge {key : String} {e : Event} (h : Spares key e) (id : ProfileId) (m : Metadata) :
    (merge id m e).get? key = m.get? key := by
  unfold merge
  split
  · split
    · rw [Table.get?_insertAll_toList]
      rw [show Table.get? _ key = none from h]
      rfl
    · rfl
  · rfl

/-- What is not written stays. -/
theorem get?_metadataAfter {key : String} {t : List Event} (h : ∀ e ∈ t, Spares key e)
    (id : ProfileId) (m : Metadata) : (metadataAfter id m t).get? key = m.get? key := by
  induction t generalizing m with
  | nil => rfl
  | cons e t ih =>
    show (metadataAfter id (merge id m e) t).get? key = _
    rw [ih (fun e he => h e (List.mem_cons_of_mem _ he)), get?_merge (h e List.mem_cons_self)]

/-! ## Storing -/

/-- There are no logout tokens in memory. -/
def HoldsNoTokens (a : Account) : Prop :=
  ∀ flow, a.login = .free flow → flow.tokens = []

/-- The others leave the profile and the directory alone and add no logout tokens. -/
def quiet : Others where
  may a b := b.profile = a.profile ∧ b.peers = a.peers ∧ (HoldsNoTokens a → HoldsNoTokens b)
  refl _ := ⟨rfl, rfl, id⟩
  trans h h' := ⟨h'.1.trans h.1, h'.2.1.trans h.2.1, h'.2.2 ∘ h.2.2⟩

/-- Neither tokens nor hashes are written. -/
def SparesBackup (e : Event) : Prop :=
  Spares MetadataKey.auth e ∧ Spares MetadataKey.peers e

theorem sparesBackup_session (id : ProfileId) (text : String) (r : Except GatewayError Unit) :
    SparesBackup (.answered (.setMetadata id (Table.ofList [(MetadataKey.session, text)])) r) := by
  have hget (key : String) (hkey : MetadataKey.session ≠ key) :
      (Table.ofList [(MetadataKey.session, text)]).get? key = none := by
    show ((Table.empty : Metadata).insert MetadataKey.session text).get? key = none
    rw [Table.get?_insert, if_neg hkey]
    rfl
  exact ⟨hget _ (by decide), hget _ (by decide)⟩

theorem conforms_write {R G : Others} {heard : Event → Prop} (data : ByteArray) :
    (Store.write data).Conforms R G heard SparesBackup := by
  refine conforms_read.bind fun id => ?_
  refine conforms_external_bind fun r _ => ⟨sparesBackup_session id _ r, ?_⟩
  cases r <;> exact conforms_done _

/-- Flushing writes nothing but the protocol session. -/
theorem conforms_flush {R G : Others} {heard : Event → Prop}
    (hG : ∀ a store, G.may a { a with store }) : Store.flush.Conforms R G heard SparesBackup := by
  refine conforms_read.bind fun store => ?_
  rcases store with data | _ | data
  · exact conforms_done _
  · exact conforms_done _
  · have hrelease : (update fun a => { a with store := .profile none }).Conforms R G heard
        SparesBackup := conforms_update fun a => hG a _
    exact hrelease.bind fun _ => conforms_write data

/-- Where there are no logout tokens, none are found in the login flow. -/
theorem flow_done {a b : Account} {t : List Event} {flow : LoginFlow}
    (h : Run quiet Login.flow a t (.done flow) b) (ha : HoldsNoTokens a) :
    t = [] ∧ quiet.may a b ∧ flow.tokens = [] := by
  obtain ⟨f, f', x, y, hx, hf, hlook, hb⟩ := h.withLogin_done
  obtain ⟨rfl, hflow, hy⟩ := hlook.done_inv
  cases hflow
  have htokens : flow.tokens = [] := hx.2.2 ha flow hf
  have htaken : quiet.may x { x with login := .taken } := ⟨rfl, rfl, fun _ _ h => by cases h⟩
  have hback : quiet.may y { y with login := .free flow } :=
    ⟨rfl, rfl, fun _ f h => by cases h; exact htokens⟩
  exact ⟨rfl, quiet.trans hx (quiet.trans (quiet.trans htaken hy) (quiet.trans hback hb)), htokens⟩

/-- Storing flushes the store, looks at the login flow and the directory, and writes to the profile. -/
theorem persist_parts {R : Others} (hR : ∀ a store, R.may a { a with store }) {a b : Account}
    {t : List Event} (h : Run R persist a t (.done ()) b) :
    ∃ flow u r w x y z, R.may a w ∧ Run R Login.flow w [] (.done flow) x ∧ R.may x y ∧ R.may y z ∧
      R.may z b ∧ (∀ e ∈ u, SparesBackup e) ∧
      t = u ++ [.answered (.setMetadata z.profile (backup flow.tokens y.peers.backupUsers)) r] := by
  obtain ⟨_, u, t₁, w, rfl, hflush, h₁⟩ := Run.bind_done h
  obtain ⟨flow, t₂, t₃, x, rfl, hflow, h₂⟩ := Run.bind_done h₁
  obtain ⟨users, t₄, t₅, a₃, rfl, husers, h₃⟩ := Run.bind_done h₂
  obtain ⟨id, t₆, t₇, a₄, rfl, hid, h₄⟩ := Run.bind_done h₃
  obtain ⟨r, t₈, t₉, a₅, rfl, hset, h₅⟩ := Run.bind_done h₄
  have hflushes : Store.flush.Conforms R R (fun _ => True) SparesBackup := conforms_flush hR
  obtain ⟨hw, hu, -⟩ := hflush.conforms (fun _ _ h => h) hflushes fun _ _ => trivial
  have ht₂ : t₂ = [] := by
    obtain ⟨_, _, _, _, -, -, hlook, -⟩ := hflow.withLogin_done
    exact hlook.done_inv.1
  subst ht₂
  obtain ⟨rfl, y, hy, rfl, ha₃⟩ := husers.read_done
  obtain ⟨rfl, z, hz, rfl, ha₄⟩ := hid.read_done
  obtain ⟨rfl, ha₅⟩ := hset.external_done
  obtain ⟨rfl, -, hb⟩ := h₅.done_inv
  exact ⟨flow, u, r, w, x, y, z, hw, hflow, hy, R.trans ha₃ hz, R.trans ha₄ (R.trans ha₅ hb), hu, rfl⟩

/-- A session without logout tokens stores the access hashes of its directory last, and writes no
tokens. -/
theorem persist_done {a b : Account} {t : List Event} (h : Run quiet persist a t (.done ()) b)
    (ha : HoldsNoTokens a) :
    quiet.may a b ∧ ∃ u r, (∀ e ∈ u, SparesBackup e) ∧
      t = u ++ [.answered (.setMetadata a.profile (backup [] a.peers.backupUsers)) r] := by
  obtain ⟨flow, u, r, w, x, y, z, hw, hflow, hy, hz, hb, hu, rfl⟩ :=
    persist_parts (R := quiet) (fun _ _ => ⟨rfl, rfl, fun h => h⟩) h
  obtain ⟨-, hx, htokens⟩ := flow_done hflow (hw.2.2 ha)
  -- nobody has changed the directory or the profile in between
  have hay : quiet.may a y := quiet.trans hw (quiet.trans hx hy)
  have haz : quiet.may a z := quiet.trans hay hz
  exact ⟨quiet.trans haz hb, u, r, hu, by rw [htokens, hay.2.1, haz.1]⟩

/-- What is stored of logout tokens and access hashes. -/
theorem get?_backup (tokens : List ByteArray) (users : List (Int64 × Int64)) :
    (backup tokens users).get? MetadataKey.auth = Backup.ofTokens tokens ∧
      (backup tokens users).get? MetadataKey.peers = some ((Backup.ofHashes users).getD "") := by
  unfold backup
  generalize (Backup.ofHashes users).getD "" = hashes
  cases Backup.ofTokens tokens with
  | none =>
    have hbackup : Table.ofList [(MetadataKey.peers, hashes)] =
        (Table.empty : Metadata).insert MetadataKey.peers hashes := rfl
    simp only [Option.map_none, Option.toList_none, List.nil_append, hbackup, Table.get?_insert,
      if_true, Table.get?_empty]
    exact ⟨if_neg (by decide), trivial⟩
  | some text =>
    have hbackup : Table.ofList [(MetadataKey.auth, text), (MetadataKey.peers, hashes)] =
        ((Table.empty : Metadata).insert MetadataKey.auth text).insert MetadataKey.peers hashes := rfl
    simp only [Option.map_some, Option.toList_some, List.singleton_append, hbackup,
      Table.get?_insert, if_true]
    exact ⟨if_neg (by decide), trivial⟩

/-- A session without logout tokens leaves the stored ones alone, and puts the access hashes of its
directory in the place of the stored ones, if the gateway takes what it is given. -/
theorem metadataAfter_persist {a b : Account} {t : List Event}
    (h : Run quiet persist a t (.done ()) b) (ha : HoldsNoTokens a)
    (htaken : ∀ e ∈ t, Taken e) (m : Metadata) :
    (metadataAfter a.profile m t).get? MetadataKey.auth = m.get? MetadataKey.auth ∧
      (metadataAfter a.profile m t).get? MetadataKey.peers =
        some ((Backup.ofHashes a.peers.backupUsers).getD "") := by
  obtain ⟨-, u, r, hu, rfl⟩ := persist_done h ha
  obtain rfl : r = .ok () := htaken _ (List.mem_append_right u (List.mem_singleton.2 rfl))
  obtain ⟨hnone, hpeers⟩ := get?_backup [] a.peers.backupUsers
  have hauth : (backup [] a.peers.backupUsers).get? MetadataKey.auth = none := hnone
  rw [metadataAfter_append, metadataAfter_singleton]
  simp only [merge, if_true, Table.get?_insertAll_toList, hauth, hpeers]
  exact ⟨get?_metadataAfter (fun e he => (hu e he).1) a.profile m, rfl⟩

end Telebridge.Session
