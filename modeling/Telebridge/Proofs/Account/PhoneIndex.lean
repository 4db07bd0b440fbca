import Telebridge.Proofs.Account.DirectoryLog
import Telebridge.Proofs.Call.Transparency
set_option autoImplicit false

/-! # The index of phone numbers

A user is found under the digits of a phone number if the number is filed under the user's key and the
access hash of that key is known (`findPhone?_user_iff`). Nothing takes a user from there but a purge and
a new entry under the same digits (`Indexes.undisturbed`); the access hash may be replaced. A resolved
user that comes with an access hash is found from then on (`indexes_learn`). -/

namespace Telebridge

namespace PeerDirectory

variable {d d' d'' : PeerDirectory} {digits : String} {id hash : Int64}

/-- A user is found under the digits, with the access hash. -/
def Indexes (d : PeerDirectory) (digits : String) (id hash : Int64) : Prop :=
  d.phones.get? digits = some ⟨.user, id⟩ ∧ d.find? ⟨.user, id⟩ = some hash

theorem findPhone?_eq_some_iff {key : PeerKey} :
    d.findPhone? digits = some (key, hash) ↔
      d.phones.get? digits = some key ∧ d.find? key = some hash := by
  show (d.phones.get? digits).bind (fun key => (d.hashes.get? key).bind fun hash =>
    some (key, hash)) = some (key, hash) ↔ _
  simp only [Option.bind_eq_some_iff, Option.some.injEq, Prod.mk.injEq, find?]
  constructor
  · rintro ⟨_, hkey, _, hhash, rfl, rfl⟩
    exact ⟨hkey, hhash⟩
  · rintro ⟨hkey, hhash⟩
    exact ⟨key, hkey, hash, hhash, rfl, rfl⟩

theorem findPhone?_user_iff :
    d.findPhone? digits = some (⟨.user, id⟩, hash) ↔ d.Indexes digits id hash :=
  findPhone?_eq_some_iff

theorem Indexes.unique {id' hash' : Int64} (h : d.Indexes digits id hash)
    (h' : d.Indexes digits id' hash') : id = id' ∧ hash = hash' := by
  obtain ⟨⟩ := h.1.symm.trans h'.1
  obtain ⟨⟩ := h.2.symm.trans h'.2
  exact ⟨rfl, rfl⟩

/-! ## What the index survives -/

/-- The operation is neither a purge nor a new entry under the digits. -/
def Operation.Spares (digits : String) : Operation → Prop
  | .purge => False
  | .savePhone phone _ => phone ≠ digits
  | _ => True

/-- What has become of a directory without a purge and without a new entry under the digits. -/
def Undisturbed (digits : String) (d d' : PeerDirectory) : Prop :=
  ∃ ops : List Operation, (∀ op ∈ ops, op.Spares digits) ∧ d' = ops.foldl Operation.run d

theorem Undisturbed.refl (digits : String) (d : PeerDirectory) : Undisturbed digits d d :=
  ⟨[], by simp, rfl⟩

theorem Undisturbed.trans (h : Undisturbed digits d d') (h' : Undisturbed digits d' d'') :
    Undisturbed digits d d'' := by
  obtain ⟨ops, hops, rfl⟩ := h
  obtain ⟨ops', hops', rfl⟩ := h'
  exact ⟨ops ++ ops', fun op hop => (List.mem_append.1 hop).elim (hops op) (hops' op),
    List.foldl_append.symm⟩

/-- An operation that spares the digits writes nothing under them. -/
theorem Operation.Spares.phone?_eq_none {op : Operation} (h : op.Spares digits) {e : Entry}
    (he : e ∈ op.entries) : e.phone? digits = none := by
  cases op with
  | purge => exact h.elim
  | savePhone phone key =>
    obtain rfl := List.mem_singleton.1 he
    exact if_neg h
  | apply users chats =>
    rcases List.mem_append.1 he with he | he
    · have hofUser := ofUser_of_mem he
      cases e <;> first | rfl | cases hofUser
    · have hofChat := ofChat_of_mem he
      cases e <;> first | rfl | cases hofChat
  | applyChatFull full =>
    cases full <;>
    · obtain rfl := List.mem_singleton.1 he
      rfl
  | save | saveContactsHash =>
    obtain rfl := List.mem_singleton.1 he
    rfl
  | saveUsers | saveUserFulls | saveChats | saveChatFulls | saveChannels | saveChannelFulls
  | restoreUsers =>
    obtain ⟨_, -, rfl⟩ := List.mem_map.1 he
    rfl

/-- An access hash that is known stays known, although another one may take its place. -/
theorem isSome_hashIn_append {key : PeerKey} {earlier : List Entry} (log : List Entry)
    (h : (hashIn key earlier).isSome) : (hashIn key (log ++ earlier)).isSome := by
  induction log with
  | nil => exact h
  | cons e log ih =>
    cases e with
    | restored k value =>
      rw [List.cons_append, hashIn, Option.isSome_or, ih, Bool.true_or]
    | hash | phone | contacts | snapshot =>
      rw [List.cons_append, hashIn, Option.isSome_or, ih, Bool.or_true]
      intro k value hrestored
      cases hrestored

theorem Indexes.run {op : Operation} (h : d.Indexes digits id hash) (hop : op.Spares digits) :
    ∃ hash', (op.run d).Indexes digits id hash' := by
  have hpurge : op ≠ .purge := by
    rintro rfl
    exact hop
  have hphone : phoneIn digits op.entries.reverse = none :=
    List.findSome?_eq_none_iff.2 fun e he => hop.phone?_eq_none (List.mem_reverse.1 he)
  have hknown : d.find? ⟨.user, id⟩ = hashIn ⟨.user, id⟩ [.hash ⟨.user, id⟩ hash] := by
    simp [h.2, hashIn, Entry.hash?]
  have hstays : ((op.run d).find? ⟨.user, id⟩).isSome := by
    rw [← written_entries d hpurge, find?_written hknown]
    exact isSome_hashIn_append _ (by rw [← hknown, h.2, Option.isSome_some])
  obtain ⟨hash', hhash'⟩ := Option.isSome_iff_exists.1 hstays
  refine ⟨hash', ?_, hhash'⟩
  rw [← written_entries d hpurge, get?_phones_written, hphone, h.1, Option.none_or]

/-- A user is found until there is a purge or a new entry under the digits. -/
theorem Indexes.undisturbed (h : d.Indexes digits id hash) (hd : Undisturbed digits d d') :
    ∃ hash', d'.Indexes digits id hash' := by
  obtain ⟨ops, hops, rfl⟩ := hd
  induction ops generalizing d hash with
  | nil => exact ⟨hash, h⟩
  | cons op ops ih =>
    obtain ⟨hash', h'⟩ := h.run (hops op List.mem_cons_self)
    exact ih h' fun op' hop' => hops op' (List.mem_cons_of_mem _ hop')

end PeerDirectory

/-! ## Users that are resolved -/

theorem Phone.digits_digits (number : String) : digits (digits number) = digits number := by
  rw [digits, digits, String.toList_ofList, List.filter_filter]
  simp

theorem Phone.digits_ne_empty_iff {number : String} :
    digits number ≠ "" ↔ ∃ c ∈ number.toList, c.isDigit := by
  rw [← List.any_eq_true, ne_eq, ← String.isEmpty_iff, Pipeline.isEmpty_digits]
  simp

namespace Pipeline

/-- A user that was resolved, and listed with an access hash, is found under the digits. -/
theorem indexes_learn {digits : String} {id hash : Int64} {resolved : ResolvedPeer} {u : User}
    (hdigits : Phone.digits digits = digits) (hne : digits ≠ "") (hpeer : resolved.peer = .user id)
    (hu : .user u ∈ resolved.users) (hid : u.id = id) (hhash : u.accessHash = some hash)
    (honly : ∀ v, .user v ∈ resolved.users → v.id = id → v = u) (a : Account) :
    (learn (.resolvePhone digits) (.ok ⟨.resolvedPeer, resolved⟩) a).peers.Indexes digits id hash := by
  have hlearn : (learn (.resolvePhone digits) (.ok ⟨.resolvedPeer, resolved⟩) a).peers =
      (a.peers.apply resolved.users resolved.chats).savePhone digits ⟨.user, id⟩ := by
    show indexPhone (.resolvePhone digits) resolved.peer
      (a.peers.apply resolved.users resolved.chats) = _
    have hempty : ¬ digits.isEmpty = true := by
      rwa [String.isEmpty_iff]
    simp only [indexPhone, hdigits, if_neg hempty, hpeer, Peer.key]
  rw [hlearn]
  constructor
  · exact (Table.get?_insert ..).trans (if_pos rfl)
  · refine PeerDirectory.find?_apply_of_mem (PeerDirectory.hash_user_mem_batchEntries.2
      ⟨u, hu, hid, hhash⟩) fun value hvalue => ?_
    obtain ⟨v, hv, hvid, hvhash⟩ := PeerDirectory.hash_user_mem_batchEntries.1 hvalue
    rw [honly v hv hvid, hhash] at hvhash
    exact (Option.some.inj hvhash).symm

end Pipeline

end Telebridge
