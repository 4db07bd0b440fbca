import Telebridge.Schema.Peer
set_option autoImplicit false

/-! # Users, groups and channels

What the server tells about the peers it mentions. A list of users or chats holds entries: an entry
may be empty, or hide an entity the account may not see. -/

namespace Telebridge

/-! ## Users -/

/-- A user. -/
structure User where
  isSelf : Bool := false
  contact : Bool := false
  bot : Bool := false
  deleted : Bool := false
  id : Int64
  accessHash : Option Int64 := none
  firstName : Option String := none
  lastName : Option String := none
  username : Option String := none
  phone : Option String := none
deriving DecidableEq, Inhabited

/-- A user in a list, or only its id. -/
inductive UserEntry where
  | empty (id : Int64)
  | user (u : User)
deriving DecidableEq, Inhabited

/-- The id of a listed user. -/
def UserEntry.id : UserEntry → Int64
  | .empty id => id
  | .user u => u.id

/-- The user of an entry that is not empty. -/
def UserEntry.user? : UserEntry → Option User
  | .empty _ => none
  | .user u => some u

/-- The full description of a user. -/
structure UserFull where
  id : Int64
  about : Option String
  commonChatsCount : Int32
deriving DecidableEq, Inhabited

/-! ## Groups and channels -/

/-- A basic group. -/
structure Chat where
  id : Int64
  title : String
  participantsCount : Int32
  date : Int32
deriving DecidableEq, Inhabited

/-- A channel or large group. -/
structure Channel where
  broadcast : Bool
  megagroup : Bool
  id : Int64
  accessHash : Option Int64
  title : String
  username : Option String
  date : Int32
deriving DecidableEq, Inhabited

/-- A group or channel in a list; entities that are closed to the account show less. -/
inductive ChatEntry where
  | empty (id : Int64)
  | chat (c : Chat)
  | forbidden (id : Int64) (title : String)
  | channel (c : Channel)
  | channelForbidden (id accessHash : Int64) (title : String)
deriving DecidableEq, Inhabited

/-- The id of a listed group or channel. -/
def ChatEntry.id : ChatEntry → Int64
  | .empty id | .forbidden id _ | .channelForbidden id _ _ => id
  | .chat c => c.id
  | .channel c => c.id

/-- The full description of a basic group. -/
structure ChatFull where
  id : Int64
  about : String
deriving DecidableEq, Inhabited

/-- The full description of a channel. -/
structure ChannelFull where
  id : Int64
  about : String
  participantsCount : Option Int32
  pts : Int32
deriving DecidableEq, Inhabited

/-- The full description of a group or channel. -/
inductive FullChat where
  | chat (c : ChatFull)
  | channel (c : ChannelFull)
deriving DecidableEq, Inhabited

end Telebridge
