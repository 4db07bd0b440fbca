import Telebridge.Proofs.Account.PeerDirectory
set_option autoImplicit false

/-! # The directory as a log

Everything that is done to a directory writes some entries to a log, or empties the log. What the
directory answers can be read off the log alone: the latest entry for what is asked counts, and a
restored access hash counts if there is no earlier entry for it (`answers_log`). So an access hash is
only ever replaced by another one for the same peer, and it does not matter whether users and chats
arrive in one batch or in two. -/

namespace Telebridge

/-! ## Snapshots of any kind -/

/-- The kinds of snapshot. -/
inductive SnapshotKind where
  | user
  | userFull
  | chat
  | chatFull
  | channel
  | channelFull
deriving DecidableEq

namespace SnapshotKind

/-- What a snapshot of each kind shows. -/
def Value : SnapshotKind → Type
  | .user => User
  | .userFull => UserFull
  | .chat => Chat
  | .chatFull => ChatFull
  | .channel => Channel
  | .channelFull => ChannelFull

/-- The id of what a snapshot shows. -/
def idOf : (kind : SnapshotKind) → kind.Value → Int64
  | .user, (u : User) => u.id
  | .userFull, (u : UserFull) => u.id
  | .chat, (c : Chat) => c.id
  | .chatFull, (c : ChatFull) => c.id
  | .channel, (c : Channel) => c.id
  | .channelFull, (c : ChannelFull) => c.id

end SnapshotKind

namespace PeerDirectory

/-- The latest snapshot of a kind with an id. -/
def snapshot? (d : PeerDirectory) : (kind : SnapshotKind) → Int64 → Option kind.Value
  | .user => d.findUser?
  | .userFull => d.findUserFull?
  | .chat => d.findChat?
  | .chatFull => d.findChatFull?
  | .channel => d.findChannel?
  | .channelFull => d.findChannelFull?

/-- Keeps a snapshot. -/
def saveSnapshot (d : PeerDirectory) : (kind : SnapshotKind) → kind.Value → PeerDirectory
  | .user, u => d.saveUsers [u]
  | .userFull, u => d.saveUserFulls [u]
  | .chat, c => d.saveChats [c]
  | .chatFull, c => d.saveChatFulls [c]
  | .channel, c => d.saveChannels [c]
  | .channelFull, c => d.saveChannelFulls [c]

/-! ## Operations and entries -/

/-- What can be done to a directory. -/
inductive Operation where
  | save (key : PeerKey) (hash : Int64)
  | savePhone (phone : String) (key : PeerKey)
  | saveContactsHash (hash : Int64)
  | saveUsers (items : List User)
  | saveUserFulls (items : List UserFull)
  | saveChats (items : List Chat)
  | saveChatFulls (items : List ChatFull)
  | saveChannels (items : List Channel)
  | saveChannelFulls (items : List ChannelFull)
  | apply (users : List UserEntry) (chats : List ChatEntry)
  | applyChatFull (full : FullChat)
  | restoreUsers (users : List (Int64 × Int64))
  | purge

/-- The directory after an operation. -/
def Operation.run (d : PeerDirectory) : Operation → PeerDirectory
  | .save key hash => d.save key hash
  | .savePhone phone key => d.savePhone phone key
  | .saveContactsHash hash => d.saveContactsHash hash
  | .saveUsers items => d.saveUsers items
  | .saveUserFulls items => d.saveUserFulls items
  | .saveChats items => d.saveChats items
  | .saveChatFulls items => d.saveChatFulls items
  | .saveChannels items => d.saveChannels items
  | .saveChannelFulls items => d.saveChannelFulls items
  | .apply users chats => d.apply users chats
  | .applyChatFull full => d.applyChatFull full
  | .restoreUsers users => d.restoreUsers users
  | .purge => d.purge

/-- The directory after some operations, the latest first. -/
def after : List Operation → PeerDirectory
  | [] => empty
  | op :: earlier => op.run (after earlier)

/-- An entry of the log: an access hash, one from a backup, an entry of the phone index, the hash of the
contact list, or a snapshot. -/
inductive Entry where
  | hash (key : PeerKey) (hash : Int64)
  | restored (key : PeerKey) (hash : Int64)
  | phone (phone : String) (key : PeerKey)
  | contacts (hash : Int64)
  | snapshot (kind : SnapshotKind) (value : kind.Value)

/-- The entries that a listed user makes: its access hash, if it carries one, and its snapshot. -/
def userEntries : UserEntry → List Entry
  | .empty _ => []
  | .user u => (u.accessHash.map (Entry.hash ⟨.user, u.id⟩)).toList ++ [.snapshot .user u]

/-- The entries that a listed group or channel makes. A group has the access hash zero, and of a closed
channel there is no snapshot. -/
def chatEntries : ChatEntry → List Entry
  | .empty _ | .forbidden _ _ => []
  | .chat c => [.hash ⟨.chat, c.id⟩ 0, .snapshot .chat c]
  | .channel c => (c.accessHash.map (Entry.hash ⟨.channel, c.id⟩)).toList ++ [.snapshot .channel c]
  | .channelForbidden id hash _ => [.hash ⟨.channel, id⟩ hash]

/-- The entries that a batch makes. -/
def batchEntries (users : List UserEntry) (chats : List ChatEntry) : List Entry :=
  users.flatMap userEntries ++ chats.flatMap chatEntries

/-- The entries that an operation makes, in the order in which they are written. -/
def Operation.entries : Operation → List Entry
  | .save key hash => [.hash key hash]
  | .savePhone phone key => [.phone phone key]
  | .saveContactsHash hash => [.contacts hash]
  | .saveUsers items => items.map (Entry.snapshot .user)
  | .saveUserFulls items => items.map (Entry.snapshot .userFull)
  | .saveChats items => items.map (Entry.snapshot .chat)
  | .saveChatFulls items => items.map (Entry.snapshot .chatFull)
  | .saveChannels items => items.map (Entry.snapshot .channel)
  | .saveChannelFulls items => items.map (Entry.snapshot .channelFull)
  | .apply users chats => batchEntries users chats
  | .applyChatFull (.chat c) => [.snapshot .chatFull c]
  | .applyChatFull (.channel c) => [.snapshot .channelFull c]
  | .restoreUsers users => users.map fun e => .restored ⟨.user, e.1⟩ e.2
  | .purge => []

/-- The log of some operations, both with the latest first: all entries since the latest purge. -/
def log : List Operation → List Entry
  | [] => []
  | .purge :: _ => []
  | op :: earlier => op.entries.reverse ++ log earlier

/-! ## What a log tells -/

/-- The key whose access hash is in an entry. -/
def Entry.key? : Entry → Option PeerKey
  | .hash key _ | .restored key _ => some key
  | _ => none

/-- The access hash under a key in an entry, unless it is from a backup. -/
def Entry.hash? (key : PeerKey) : Entry → Option Int64
  | .hash k value => if k = key then some value else none
  | _ => none

/-- The access hash under a key: the latest that was written. One from a backup was written if none was
there. -/
def hashIn (key : PeerKey) : List Entry → Option Int64
  | [] => none
  | .restored k value :: earlier =>
    (hashIn key earlier).or (if k = key then some value else none)
  | e :: earlier => (e.hash? key).or (hashIn key earlier)

/-- The peer that an entry files under a phone number. -/
def Entry.phone? (phone : String) : Entry → Option PeerKey
  | .phone p key => if p = phone then some key else none
  | _ => none

/-- The hash of the contact list in an entry. -/
def Entry.contacts? : Entry → Option Int64
  | .contacts value => some value
  | _ => none

/-- The snapshot in an entry, if it is of the kind and has the id. -/
def Entry.snapshot? (kind : SnapshotKind) (id : Int64) : Entry → Option kind.Value
  | .snapshot k value =>
    if h : k = kind then
      if k.idOf value = id then some (h ▸ value) else none
    else none
  | _ => none

/-- The peer that was filed last under a phone number. -/
def phoneIn (phone : String) (log : List Entry) : Option PeerKey :=
  log.findSome? (Entry.phone? phone)

/-- The hash of the contact list that was written last; zero if there was none. -/
def contactsIn (log : List Entry) : Int64 :=
  (log.findSome? Entry.contacts?).getD 0

/-- The latest snapshot of a kind with an id. -/
def snapshotIn (kind : SnapshotKind) (id : Int64) (log : List Entry) : Option kind.Value :=
  log.findSome? (Entry.snapshot? kind id)

/-! ## Entries one by one -/

/-- The directory after an entry was written. -/
def Entry.write : Entry → PeerDirectory → PeerDirectory
  | .hash key value, d => d.save key value
  | .restored key value, d => { d with hashes := d.hashes.insertNew key value }
  | .phone number key, d => d.savePhone number key
  | .contacts value, d => d.saveContactsHash value
  | .snapshot kind value, d => d.saveSnapshot kind value

/-- The directory after some entries were written to it, the latest first. -/
def written (d : PeerDirectory) (log : List Entry) : PeerDirectory :=
  log.foldr Entry.write d

theorem written_append (d : PeerDirectory) (log earlier : List Entry) :
    d.written (log ++ earlier) = (d.written earlier).written log :=
  List.foldr_append

theorem written_reverse_cons (d : PeerDirectory) (e : Entry) (entries : List Entry) :
    d.written (e :: entries).reverse = (e.write d).written entries.reverse := by
  rw [List.reverse_cons, written_append]
  rfl

theorem written_userEntries (d : PeerDirectory) (entry : UserEntry) :
    d.written (userEntries entry).reverse = d.applyUser entry := by
  cases entry with
  | empty id => rfl
  | user u =>
    simp only [applyUser, userEntries]
    cases u.accessHash <;> rfl

theorem written_chatEntries (d : PeerDirectory) (entry : ChatEntry) :
    d.written (chatEntries entry).reverse = d.applyChat entry := by
  cases entry with
  | channel c =>
    simp only [applyChat, chatEntries]
    cases c.accessHash <;> rfl
  | _ => rfl

/-- A batch writes its entries. -/
theorem written_batchEntries (d : PeerDirectory) (users : List UserEntry) (chats : List ChatEntry) :
    d.written (batchEntries users chats).reverse = d.apply users chats := by
  have husers : d.written (users.flatMap userEntries).reverse = users.foldl applyUser d := by
    induction users generalizing d with
    | nil => rfl
    | cons entry rest ih =>
      rw [List.flatMap_cons, List.reverse_append, written_append, written_userEntries, ih]
      rfl
  rw [batchEntries, List.reverse_append, written_append, husers, apply]
  generalize users.foldl applyUser d = d
  induction chats generalizing d with
  | nil => rfl
  | cons entry rest ih =>
    rw [List.flatMap_cons, List.reverse_append, written_append, written_chatEntries, ih]
    rfl

/-- An operation writes its entries, unless it is a purge. -/
theorem written_entries (d : PeerDirectory) {op : Operation} (h : op ≠ .purge) :
    d.written op.entries.reverse = op.run d := by
  cases op with
  | purge => exact absurd rfl h
  | apply users chats => exact written_batchEntries d users chats
  | applyChatFull full => cases full <;> rfl
  | save | savePhone | saveContactsHash => rfl
  | saveUsers items | saveUserFulls items | saveChats items | saveChatFulls items
  | saveChannels items | saveChannelFulls items =>
    induction items generalizing d with
    | nil => rfl
    | cons item rest ih => exact (written_reverse_cons d _ _).trans (ih _ nofun)
  | restoreUsers users =>
    induction users generalizing d with
    | nil => rfl
    | cons e rest ih => exact (written_reverse_cons d _ _).trans (ih _ nofun)

/-- The directory is what its log has written. -/
theorem written_log (ops : List Operation) : empty.written (log ops) = after ops := by
  induction ops with
  | nil => rfl
  | cons op earlier ih =>
    by_cases h : op = .purge
    · subst h
      rfl
    · have hlog : log (op :: earlier) = op.entries.reverse ++ log earlier := by
        cases op <;> first | rfl | exact absurd rfl h
      rw [hlog, written_append, ih, written_entries _ h, after]

/-! ## Look-ups -/

/-- If a log tells the access hash under a key, then it does so with more entries. -/
theorem find?_written {d : PeerDirectory} {key : PeerKey} {earlier : List Entry}
    (h : d.find? key = hashIn key earlier) (log : List Entry) :
    (d.written log).find? key = hashIn key (log ++ earlier) := by
  induction log with
  | nil => exact h
  | cons e log ih =>
    cases e with
    | hash k value =>
      show ((d.written log).hashes.insert k value).get? key =
        (if k = key then some value else none).or (hashIn key (log ++ earlier))
      rw [← ih, Table.get?_insert]
      split <;> rfl
    | restored k value =>
      show ((d.written log).hashes.insertNew k value).get? key =
        (hashIn key (log ++ earlier)).or (if k = key then some value else none)
      rw [← ih, Table.get?_insertNew]
      show _ = ((d.written log).hashes.get? key).or _
      cases (d.written log).hashes.get? key <;> simp
    | snapshot kind value => cases kind <;> exact ih
    | phone | contacts => exact ih

theorem get?_phones_written (d : PeerDirectory) (log : List Entry) (phone : String) :
    (d.written log).phones.get? phone = (phoneIn phone log).or (d.phones.get? phone) := by
  induction log with
  | nil => rfl
  | cons e log ih =>
    rw [phoneIn, List.findSome?_cons]
    cases e with
    | phone number key =>
      show ((d.written log).phones.insert number key).get? phone = _
      rw [Table.get?_insert, ih, Entry.phone?]
      split <;> rfl
    | snapshot kind value => cases kind <;> exact ih
    | hash | restored | contacts => exact ih

theorem contactsHash_written (d : PeerDirectory) (log : List Entry) :
    (d.written log).contactsHash = (log.findSome? Entry.contacts?).getD d.contactsHash := by
  induction log with
  | nil => rfl
  | cons e log ih =>
    cases e with
    | contacts value => rfl
    | snapshot kind value => cases kind <;> exact ih
    | hash | restored | phone => exact ih

/-- Keeping a snapshot replaces the one of its kind and id, and no other. -/
theorem snapshot?_saveSnapshot (d : PeerDirectory) (k kind : SnapshotKind) (value : k.Value)
    (id : Int64) :
    (d.saveSnapshot k value).snapshot? kind id =
      ((Entry.snapshot k value).snapshot? kind id).or (d.snapshot? kind id) := by
  by_cases h : k = kind
  · subst h
    have hsame : (d.saveSnapshot k value).snapshot? k id =
        if k.idOf value = id then some value else d.snapshot? k id := by
      cases k <;> exact Table.get?_insert _ _ _ _
    rw [hsame, Entry.snapshot?, dif_pos rfl]
    split <;> rfl
  · rw [Entry.snapshot?, dif_neg h]
    cases k <;> cases kind <;> first | rfl | exact absurd rfl h

theorem snapshot?_written (d : PeerDirectory) (log : List Entry) (kind : SnapshotKind) (id : Int64) :
    (d.written log).snapshot? kind id = (snapshotIn kind id log).or (d.snapshot? kind id) := by
  induction log with
  | nil => rfl
  | cons e log ih =>
    have hstep : (e.write (d.written log)).snapshot? kind id =
        (e.snapshot? kind id).or ((d.written log).snapshot? kind id) := by
      cases e with
      | snapshot k value => exact snapshot?_saveSnapshot _ k kind value id
      | hash | restored | phone | contacts => cases kind <;> rfl
    show (e.write (d.written log)).snapshot? kind id =
      (List.findSome? (Entry.snapshot? kind id) (e :: log)).or _
    rw [hstep, ih, List.findSome?_cons]
    cases e.snapshot? kind id <;> rfl

/-- A snapshot that a log tells of has the id. -/
theorem idOf_snapshotIn {kind : SnapshotKind} {id : Int64} {log : List Entry} {value : kind.Value}
    (h : snapshotIn kind id log = some value) : kind.idOf value = id := by
  obtain ⟨e, -, he⟩ := List.exists_of_findSome?_eq_some h
  cases e with
  | snapshot k v =>
    rw [Entry.snapshot?] at he
    split at he
    · rename_i hk
      subst hk
      split at he
      · cases he
        assumption
      · cases he
    · cases he
  | hash | restored | phone | contacts => cases he

/-- What is told of a key is told by the entries with this key. -/
theorem hashIn_filter (key : PeerKey) (log : List Entry) :
    hashIn key (log.filter fun e => e.key? = some key) = hashIn key log := by
  induction log with
  | nil => rfl
  | cons e log ih =>
    cases e with
    | hash k value =>
      by_cases hk : k = key
      · rw [List.filter_cons_of_pos (by simp [Entry.key?, hk]), hashIn, hashIn, ih] <;> nofun
      · rw [List.filter_cons_of_neg (by simp [Entry.key?, hk]), ih]
        simp [hashIn, Entry.hash?, hk]
    | restored k value =>
      by_cases hk : k = key
      · rw [List.filter_cons_of_pos (by simp [Entry.key?, hk]), hashIn, hashIn, ih]
      · rw [List.filter_cons_of_neg (by simp [Entry.key?, hk]), ih]
        simp [hashIn, hk]
    | phone | contacts | snapshot => exact ih

/-! ## Batches -/

/-- Whether an entry is the access hash or the snapshot of a user. -/
def Entry.ofUser : Entry → Bool
  | .hash key _ => key.kind = .user
  | .snapshot kind _ => kind = .user
  | _ => false

/-- Whether an entry is the access hash or the snapshot of a group or channel. -/
def Entry.ofChat : Entry → Bool
  | .hash key _ => key.kind ≠ .user
  | .snapshot kind _ => kind ≠ .user
  | _ => false

theorem ofUser_of_mem {users : List UserEntry} {e : Entry} (h : e ∈ users.flatMap userEntries) :
    e.ofUser := by
  obtain ⟨entry, -, he⟩ := List.mem_flatMap.1 h
  cases entry with
  | empty id => cases he
  | user u =>
    simp only [userEntries, List.mem_append, Option.mem_toList, Option.map_eq_some_iff,
      List.mem_singleton] at he
    obtain ⟨value, -, rfl⟩ | rfl := he <;> rfl

theorem ofChat_of_mem {chats : List ChatEntry} {e : Entry} (h : e ∈ chats.flatMap chatEntries) :
    e.ofChat := by
  obtain ⟨entry, -, he⟩ := List.mem_flatMap.1 h
  cases entry with
  | channel c =>
    simp only [chatEntries, List.mem_append, Option.mem_toList, Option.map_eq_some_iff,
      List.mem_singleton] at he
    obtain ⟨value, -, rfl⟩ | rfl := he <;> rfl
  | chat c =>
    simp only [chatEntries, List.mem_cons, List.not_mem_nil, or_false] at he
    obtain rfl | rfl := he <;> rfl
  | channelForbidden id hash title =>
    cases List.mem_singleton.1 he
    rfl
  | empty | forbidden => cases he

/-- Entries of users and chats restore nothing: they tell the access hash under a key, or leave it. -/
theorem hashIn_append {entries : List Entry} (h : ∀ e ∈ entries, e.ofUser ∨ e.ofChat) (key : PeerKey)
    (log : List Entry) :
    hashIn key (entries ++ log) = (entries.findSome? (Entry.hash? key)).or (hashIn key log) := by
  induction entries with
  | nil => rfl
  | cons e entries ih =>
    have hrest := ih fun e he => h e (List.mem_cons_of_mem _ he)
    have hcons : hashIn key (e :: (entries ++ log)) =
        (e.hash? key).or (hashIn key (entries ++ log)) := by
      cases e with
      | restored k value => simpa [Entry.ofUser, Entry.ofChat] using h (.restored k value)
      | hash | phone | contacts | snapshot => rfl
    rw [List.cons_append, hcons, hrest, List.findSome?_cons]
    cases e.hash? key <;> rfl

theorem hashIn_batch_append (users : List UserEntry) (chats : List ChatEntry) (key : PeerKey)
    (log : List Entry) :
    hashIn key ((batchEntries users chats).reverse ++ log) =
      ((batchEntries users chats).reverse.findSome? (Entry.hash? key)).or (hashIn key log) :=
  hashIn_append
    (fun _ he => (List.mem_append.1 (List.mem_reverse.1 he)).imp ofUser_of_mem ofChat_of_mem) key log

theorem hashIn_batch (users : List UserEntry) (chats : List ChatEntry) (key : PeerKey) :
    hashIn key (batchEntries users chats).reverse =
      (batchEntries users chats).reverse.findSome? (Entry.hash? key) := by
  simpa [hashIn] using hashIn_batch_append users chats key []

/-- A batch replaces the access hashes that it carries, and leaves all others. -/
theorem find?_apply (d : PeerDirectory) (users : List UserEntry) (chats : List ChatEntry)
    (key : PeerKey) :
    (d.apply users chats).find? key =
      (hashIn key (batchEntries users chats).reverse).or (d.find? key) := by
  -- what the directory knows under the key can be told by a log
  obtain ⟨earlier, hd⟩ : ∃ earlier, d.find? key = hashIn key earlier := by
    cases d.find? key with
    | none => exact ⟨[], rfl⟩
    | some value => exact ⟨[.hash key value], by simp [hashIn, Entry.hash?]⟩
  rw [← written_batchEntries, find?_written hd, hashIn_batch_append, hashIn_batch, hd]

/-- The access hashes of users that a batch carries are those of the users it lists. -/
theorem hash_user_mem_batchEntries {users : List UserEntry} {chats : List ChatEntry} {id value : Int64} :
    Entry.hash ⟨.user, id⟩ value ∈ batchEntries users chats ↔
      ∃ u, UserEntry.user u ∈ users ∧ u.id = id ∧ u.accessHash = some value := by
  constructor
  · intro h
    rcases List.mem_append.1 h with h | h
    · obtain ⟨entry, hentry, he⟩ := List.mem_flatMap.1 h
      cases entry with
      | empty i => cases he
      | user u =>
        simp only [userEntries, List.mem_append, Option.mem_toList, Option.map_eq_some_iff,
          List.mem_singleton, reduceCtorEq, or_false, Entry.hash.injEq, PeerKey.mk.injEq,
          true_and] at he
        obtain ⟨v, hv, hid, rfl⟩ := he
        exact ⟨u, hentry, hid, hv⟩
    · simpa [Entry.ofChat] using ofChat_of_mem h
  · rintro ⟨u, hu, rfl, hvalue⟩
    refine List.mem_append_left _ (List.mem_flatMap.2 ⟨_, hu, ?_⟩)
    simp [userEntries, hvalue]

/-- What a batch carries for a key is known afterwards, if it carries nothing else for it. -/
theorem find?_apply_of_mem {d : PeerDirectory} {users : List UserEntry} {chats : List ChatEntry}
    {key : PeerKey} {value : Int64} (h : Entry.hash key value ∈ batchEntries users chats)
    (honly : ∀ v, Entry.hash key v ∈ batchEntries users chats → v = value) :
    (d.apply users chats).find? key = some value := by
  rw [find?_apply, hashIn_batch]
  cases hask : (batchEntries users chats).reverse.findSome? (Entry.hash? key) with
  | none =>
    have hnone := List.findSome?_eq_none_iff.1 hask _ (List.mem_reverse.2 h)
    simp [Entry.hash?] at hnone
  | some v =>
    obtain ⟨e, he, hv⟩ := List.exists_of_findSome?_eq_some hask
    cases e with
    | hash k w =>
      obtain ⟨rfl, rfl⟩ : k = key ∧ w = v := by simpa [Entry.hash?] using hv
      rw [honly w (List.mem_reverse.1 he), Option.some_or]
    | restored | phone | contacts | snapshot => cases hv

/-- For which a batch carries nothing is found as before. -/
theorem find?_apply_of_forall_notMem {d : PeerDirectory} {users : List UserEntry}
    {chats : List ChatEntry} {key : PeerKey}
    (h : ∀ value, Entry.hash key value ∉ batchEntries users chats) :
    (d.apply users chats).find? key = d.find? key := by
  have hask : (batchEntries users chats).reverse.findSome? (Entry.hash? key) = none := by
    refine List.findSome?_eq_none_iff.2 fun e he => ?_
    cases e with
    | hash k w =>
      have hk : ¬ k = key := fun hk => h w (hk ▸ List.mem_reverse.1 he)
      exact if_neg hk
    | restored | phone | contacts | snapshot => rfl
  rw [find?_apply, hashIn_batch, hask, Option.none_or]

/-- Only users, or only groups and channels, have an access hash under a key. -/
theorem hash?_apart (key : PeerKey) :
    (∀ e : Entry, e.ofUser → e.hash? key = none) ∨ (∀ e : Entry, e.ofChat → e.hash? key = none) := by
  by_cases hkey : key.kind = .user
  · refine .inr fun e he => ?_
    cases e with
    | hash k value => exact if_neg fun hk => by simp [Entry.ofChat, hk, hkey] at he
    | restored | phone | contacts | snapshot => rfl
  · refine .inl fun e he => ?_
    cases e with
    | hash k value => exact if_neg fun hk => by simp [Entry.ofUser, hk, hkey] at he
    | restored | phone | contacts | snapshot => rfl

/-- Only users, or only groups and channels, have snapshots of a kind. -/
theorem snapshot?_apart (kind : SnapshotKind) (id : Int64) :
    (∀ e : Entry, e.ofUser → e.snapshot? kind id = none) ∨
      (∀ e : Entry, e.ofChat → e.snapshot? kind id = none) := by
  by_cases hkind : kind = .user
  · refine .inr fun e he => ?_
    cases e with
    | snapshot k value => exact dif_neg fun hk => by simp [Entry.ofChat, hk, hkind] at he
    | hash | restored | phone | contacts => rfl
  · refine .inl fun e he => ?_
    cases e with
    | snapshot k value => exact dif_neg fun hk => by simp [Entry.ofUser, hk, hkind] at he
    | hash | restored | phone | contacts => rfl

/-- What is asked about users alone, or about groups and channels alone, is told by two batches as by
their concatenation. -/
theorem findSome?_batches {α : Type} {ask : Entry → Option α}
    (hask : (∀ e : Entry, e.ofUser → ask e = none) ∨ (∀ e : Entry, e.ofChat → ask e = none))
    (users users' : List UserEntry) (chats chats' : List ChatEntry) :
    (batchEntries (users ++ users') (chats ++ chats')).reverse.findSome? ask =
      ((batchEntries users' chats').reverse ++ (batchEntries users chats).reverse).findSome? ask := by
  have hnone {entries : List Entry} (h : ∀ e ∈ entries, ask e = none) :
      entries.reverse.findSome? ask = none :=
    List.findSome?_eq_none_iff.2 fun e he => h e (List.mem_reverse.1 he)
  simp only [batchEntries, List.flatMap_append, List.reverse_append, List.findSome?_append]
  rcases hask with husers | hchats
  · rw [hnone fun e he => husers e (ofUser_of_mem he), hnone fun e he => husers e (ofUser_of_mem he)]
    simp
  · rw [hnone fun e he => hchats e (ofChat_of_mem he), hnone fun e he => hchats e (ofChat_of_mem he)]
    simp

/-! ## Refinement -/

/-- What a log tells is what the directory answers. -/
structure Answers (d : PeerDirectory) (log : List Entry) : Prop where
  find : ∀ key, d.find? key = hashIn key log
  findPhone : ∀ phone,
    d.findPhone? phone = (phoneIn phone log).bind fun key => (hashIn key log).map (key, ·)
  contactsHash : d.contactsHash = contactsIn log
  snapshot : ∀ kind id, d.snapshot? kind id = snapshotIn kind id log
  inputUser : ∀ id, d.inputPeer (.user id) = .user id ((hashIn ⟨.user, id⟩ log).getD 0)
  inputChat : ∀ id, d.inputPeer (.chat id) = .chat id
  inputChannel : ∀ id, d.inputPeer (.channel id) = .channel id ((hashIn ⟨.channel, id⟩ log).getD 0)
  backup : ∀ id, lookupEntry id d.backupUsers = hashIn ⟨.user, id⟩ log

/-- Two directories that have the same entries, in whatever order these were first written. -/
structure Agree (d e : PeerDirectory) : Prop where
  hashes : ∀ key, d.find? key = e.find? key
  phones : ∀ phone, d.phones.get? phone = e.phones.get? phone
  contactsHash : d.contactsHash = e.contactsHash
  snapshots : ∀ kind id, d.snapshot? kind id = e.snapshot? kind id

theorem answers_written (log : List Entry) : (empty.written log).Answers log := by
  have hfind : ∀ key, (empty.written log).find? key = hashIn key log := fun key => by
    have hempty : empty.find? key = hashIn key [] := rfl
    rw [find?_written hempty, List.append_nil]
  have hphone : ∀ phone, (empty.written log).phones.get? phone = phoneIn phone log := fun phone =>
    (get?_phones_written _ _ _).trans (Option.or_none)
  exact {
    find := hfind
    findPhone := fun phone => by
      show ((empty.written log).phones.get? phone).bind (fun key =>
        ((empty.written log).find? key).bind fun hash => some (key, hash)) = _
      simp only [hphone, hfind, Option.map_eq_bind, Function.comp_def]
    contactsHash := contactsHash_written _ _
    snapshot := fun kind id => by
      rw [snapshot?_written]
      cases kind <;> exact Option.or_none
    inputUser := fun id => by rw [← hfind]; rfl
    inputChat := fun id => rfl
    inputChannel := fun id => by rw [← hfind]; rfl
    backup := fun id => by rw [lookupEntry_backupUsers, hfind] }

/-- Two batches one after the other do what their concatenation does. -/
theorem agree_apply_apply (d : PeerDirectory) (users users' : List UserEntry)
    (chats chats' : List ChatEntry) :
    ((d.apply users chats).apply users' chats').Agree (d.apply (users ++ users') (chats ++ chats')) where
  hashes key := by
    rw [find?_apply, find?_apply, find?_apply, hashIn_batch, hashIn_batch, hashIn_batch,
      findSome?_batches (hash?_apart key), List.findSome?_append, Option.or_assoc]
  phones phone := by
    have hask : ∀ e : Entry, e.ofUser → e.phone? phone = none := fun e he => by
      cases e <;> first | rfl | cases he
    simp only [← written_batchEntries, get?_phones_written, phoneIn]
    rw [findSome?_batches (.inl hask), List.findSome?_append, Option.or_assoc]
  contactsHash := by
    have hask : ∀ e : Entry, e.ofUser → e.contacts? = none := fun e he => by
      cases e <;> first | rfl | cases he
    simp only [← written_batchEntries, contactsHash_written]
    rw [findSome?_batches (.inl hask), List.findSome?_append]
    cases List.findSome? Entry.contacts? (batchEntries users' chats').reverse <;> rfl
  snapshots kind id := by
    simp only [← written_batchEntries, snapshot?_written, snapshotIn]
    rw [findSome?_batches (snapshot?_apart kind id), List.findSome?_append, Option.or_assoc]

/-- After any operations the directory answers what the log of these operations tells. What is found
under a key depends on the entries with this key alone, and a snapshot has the id that was asked for. A
batch replaces the access hashes that it carries and no other, and two batches in a row do what one does
that has the items of both. -/
theorem answers_log :
    (∀ ops, (after ops).Answers (log ops)) ∧
    (∀ ops key, (after ops).find? key = hashIn key ((log ops).filter fun e => e.key? = some key)) ∧
    (∀ ops kind id, ∀ value ∈ (after ops).snapshot? kind id, kind.idOf value = id) ∧
    (∀ (d : PeerDirectory) users chats key,
      (d.apply users chats).find? key =
        (hashIn key (batchEntries users chats).reverse).or (d.find? key)) ∧
    (∀ (d : PeerDirectory) users users' chats chats',
      ((d.apply users chats).apply users' chats').Agree
        (d.apply (users ++ users') (chats ++ chats'))) := by
  have hanswers (ops : List Operation) : (after ops).Answers (log ops) :=
    written_log ops ▸ answers_written (log ops)
  refine ⟨hanswers, fun ops key => ?_, fun ops kind id value hvalue => ?_, find?_apply,
    agree_apply_apply⟩
  · rw [hashIn_filter, (hanswers ops).find]
  · rw [(hanswers ops).snapshot] at hvalue
    exact idOf_snapshotIn hvalue

theorem answers_log_sharedId :
    let ops := [Operation.restoreUsers [(1, 99), (2, 22)],
      .apply [.user { id := 1, firstName := some "Ann" }]
        [.chat { id := 1, title := "team", participantsCount := 2, date := 0 },
          .channelForbidden 1 33 "news"],
      .savePhone "1555" ⟨.user, 1⟩, .save ⟨.user, 1⟩ 11, .purge, .save ⟨.user, 3⟩ 7]
    (after ops).find? ⟨.user, 1⟩ = some 11 ∧ (after ops).find? ⟨.user, 2⟩ = some 22 ∧
      (after ops).find? ⟨.user, 3⟩ = none ∧ (after ops).find? ⟨.chat, 1⟩ = some 0 ∧
      (after ops).find? ⟨.channel, 1⟩ = some 33 ∧
      (after ops).findPhone? "1555" = some (⟨.user, 1⟩, 11) := by
  intro ops
  have h := answers_log.1 ops
  exact ⟨(h.find _).trans (by decide), (h.find _).trans (by decide), (h.find _).trans (by decide),
    (h.find _).trans (by decide), (h.find _).trans (by decide), (h.findPhone _).trans (by decide)⟩

end PeerDirectory

end Telebridge
