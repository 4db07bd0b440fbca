import Telebridge.Data.Table
import Telebridge.Schema.Request
set_option autoImplicit false

/-! # The peer directory

What an account remembers about peers: access hashes, an index of phone numbers, and the latest
snapshots of users, groups and channels. It is a cache: the latest write wins, `purge` forgets all,
and a restored hash never replaces one that is known. -/

namespace Telebridge

/-! ## Keys -/

/-- The kinds of peer. -/
inductive PeerKind where
  | user
  | chat
  | channel
deriving DecidableEq, Inhabited

/-- A peer by kind and id. -/
structure PeerKey where
  kind : PeerKind
  id : Int64
deriving DecidableEq, Inhabited

/-- The key of a peer. -/
def Peer.key : Peer → PeerKey
  | .user id => ⟨.user, id⟩
  | .chat id => ⟨.chat, id⟩
  | .channel id => ⟨.channel, id⟩

/-! ## The directory -/

/-- What is remembered about peers. -/
structure PeerDirectory where
  hashes : Table PeerKey Int64 := Table.empty
  phones : Table String PeerKey := Table.empty
  contactsHash : Int64 := 0
  users : Table Int64 User := Table.empty
  userFulls : Table Int64 UserFull := Table.empty
  chats : Table Int64 Chat := Table.empty
  chatFulls : Table Int64 ChatFull := Table.empty
  channels : Table Int64 Channel := Table.empty
  channelFulls : Table Int64 ChannelFull := Table.empty
deriving DecidableEq, Inhabited

namespace PeerDirectory

/-- A directory that knows nothing. -/
def empty : PeerDirectory := {}

/-! ### Addresses -/

/-- Remembers an access hash. -/
def save (d : PeerDirectory) (key : PeerKey) (hash : Int64) : PeerDirectory :=
  { d with hashes := d.hashes.insert key hash }

/-- The access hash of a peer. -/
def find? (d : PeerDirectory) (key : PeerKey) : Option Int64 :=
  d.hashes.get? key

/-- Files a peer under a phone number of digits only. -/
def savePhone (d : PeerDirectory) (phone : String) (key : PeerKey) : PeerDirectory :=
  { d with phones := d.phones.insert phone key }

/-- The peer and access hash for a phone number, if both are known. -/
def findPhone? (d : PeerDirectory) (phone : String) : Option (PeerKey × Int64) := do
  let key ← d.phones.get? phone
  let hash ← d.hashes.get? key
  return (key, hash)

/-- Remembers the hash of the contact list. -/
def saveContactsHash (d : PeerDirectory) (hash : Int64) : PeerDirectory :=
  { d with contactsHash := hash }

/-! ### Snapshots -/

/-- Keeps snapshots of users. -/
def saveUsers (d : PeerDirectory) (items : List User) : PeerDirectory :=
  { d with users := d.users.insertAll (items.map fun u => (u.id, u)) }

/-- Keeps full descriptions of users. -/
def saveUserFulls (d : PeerDirectory) (items : List UserFull) : PeerDirectory :=
  { d with userFulls := d.userFulls.insertAll (items.map fun u => (u.id, u)) }

/-- Keeps snapshots of groups. -/
def saveChats (d : PeerDirectory) (items : List Chat) : PeerDirectory :=
  { d with chats := d.chats.insertAll (items.map fun c => (c.id, c)) }

/-- Keeps full descriptions of groups. -/
def saveChatFulls (d : PeerDirectory) (items : List ChatFull) : PeerDirectory :=
  { d with chatFulls := d.chatFulls.insertAll (items.map fun c => (c.id, c)) }

/-- Keeps snapshots of channels. -/
def saveChannels (d : PeerDirectory) (items : List Channel) : PeerDirectory :=
  { d with channels := d.channels.insertAll (items.map fun c => (c.id, c)) }

/-- Keeps full descriptions of channels. -/
def saveChannelFulls (d : PeerDirectory) (items : List ChannelFull) : PeerDirectory :=
  { d with channelFulls := d.channelFulls.insertAll (items.map fun c => (c.id, c)) }

/-- The latest snapshot of a user. -/
def findUser? (d : PeerDirectory) (id : Int64) : Option User := d.users.get? id

/-- The latest full description of a user. -/
def findUserFull? (d : PeerDirectory) (id : Int64) : Option UserFull := d.userFulls.get? id

/-- The latest snapshot of a group. -/
def findChat? (d : PeerDirectory) (id : Int64) : Option Chat := d.chats.get? id

/-- The latest full description of a group. -/
def findChatFull? (d : PeerDirectory) (id : Int64) : Option ChatFull := d.chatFulls.get? id

/-- The latest snapshot of a channel. -/
def findChannel? (d : PeerDirectory) (id : Int64) : Option Channel := d.channels.get? id

/-- The latest full description of a channel. -/
def findChannelFull? (d : PeerDirectory) (id : Int64) : Option ChannelFull :=
  d.channelFulls.get? id

/-! ### Learning from replies -/

/-- Learns from a listed user: its snapshot, and its access hash if it carries one. -/
def applyUser (d : PeerDirectory) : UserEntry → PeerDirectory
  | .empty _ => d
  | .user u =>
    let d := match u.accessHash with
      | some hash => d.save ⟨.user, u.id⟩ hash
      | none => d
    d.saveUsers [u]

/-- Learns from a listed group or channel: its snapshot, and an access hash that comes with it.
Groups need none and are filed under zero; of a closed channel only the hash is known. -/
def applyChat (d : PeerDirectory) : ChatEntry → PeerDirectory
  | .empty _ | .forbidden _ _ => d
  | .chat c => (d.save ⟨.chat, c.id⟩ 0).saveChats [c]
  | .channel c =>
    let d := match c.accessHash with
      | some hash => d.save ⟨.channel, c.id⟩ hash
      | none => d
    d.saveChannels [c]
  | .channelForbidden id hash _ => d.save ⟨.channel, id⟩ hash

/-- Learns from lists of users and chats. -/
def apply (d : PeerDirectory) (users : List UserEntry) (chats : List ChatEntry) : PeerDirectory :=
  chats.foldl applyChat (users.foldl applyUser d)

/-- Keeps a full description of a group or channel. -/
def applyChatFull (d : PeerDirectory) : FullChat → PeerDirectory
  | .chat c => d.saveChatFulls [c]
  | .channel c => d.saveChannelFulls [c]

/-! ### Addressing -/

/-- The addressee for a peer; an unknown access hash counts as zero, which the server may reject. -/
def inputPeer (d : PeerDirectory) (peer : Peer) : InputPeer :=
  let hash := (d.find? peer.key).getD 0
  match peer with
  | .user id => .user id hash
  | .chat id => .chat id
  | .channel id => .channel id hash

/-! ### Backup -/

/-- The access hashes of all users, by user id. -/
def backupUsers (d : PeerDirectory) : List (Int64 × Int64) :=
  d.hashes.toList.filterMap fun e => if e.1.kind = .user then some (e.1.id, e.2) else none

/-- Adds the access hashes of users that have none yet. -/
def restoreUsers (d : PeerDirectory) (users : List (Int64 × Int64)) : PeerDirectory :=
  { d with hashes := users.foldl (fun t e => t.insertNew ⟨.user, e.1⟩ e.2) d.hashes }

/-- Forgets everything. -/
def purge (_ : PeerDirectory) : PeerDirectory :=
  empty

end PeerDirectory

end Telebridge
