import Telebridge.Schema.Entity
import Telebridge.Schema.Media
set_option autoImplicit false

/-! # Messages, dialogs and updates

Messages as the server lists them, the dialogs of an account, and the batches of updates that report
changes. A batch may carry the users and chats its updates mention. -/

namespace Telebridge

/-! ## Messages -/

/-- A message with content. -/
structure Message where
  out : Bool
  id : Int32
  fromId : Option Peer
  peerId : Peer
  date : Int32
  message : String
  media : Option MessageMedia
deriving DecidableEq, Inhabited

/-- A message in a list: content, a notice about the chat, or nothing but an id. -/
inductive MessageEntry where
  | empty (id : Int32) (peerId : Option Peer)
  | message (m : Message)
  | service (out : Bool) (id : Int32) (peerId : Peer) (date : Int32)
deriving DecidableEq, Inhabited

namespace MessageEntry

/-- The id of a listed message. -/
def id : MessageEntry → Int32
  | .empty id _ => id
  | .message m => m.id
  | .service _ id _ _ => id

/-- The date of a listed message, if it has one. -/
def date? : MessageEntry → Option Int32
  | .empty _ _ => none
  | .message m => some m.date
  | .service _ _ _ date => some date

/-- The date of a listed message, zero for an empty one. -/
def date (m : MessageEntry) : Int32 :=
  m.date?.getD 0

end MessageEntry

/-! ## Dialogs -/

/-- One conversation of the account, or a folder of them. -/
inductive Dialog where
  | dialog (pinned : Bool) (peer : Peer) (topMessage unreadCount : Int32) (pts : Option Int32)
  | folder (folderId topMessage : Int32)
deriving DecidableEq, Inhabited

/-- Dialogs with the messages, chats and users they mention. -/
structure DialogList where
  dialogs : List Dialog
  messages : List MessageEntry
  chats : List ChatEntry
  users : List UserEntry
deriving DecidableEq, Inhabited

/-- A page of dialogs: all of them, a slice of a longer list, or no change. -/
inductive DialogPage where
  | full (list : DialogList)
  | slice (count : Int32) (list : DialogList)
  | notModified (count : Int32)
deriving DecidableEq, Inhabited

/-! ## Updates -/

/-- A change to the account's messages. -/
inductive Update where
  | newMessage (message : MessageEntry) (pts ptsCount : Int32)
  | newChannelMessage (message : MessageEntry) (pts ptsCount : Int32)
  | editMessage (message : MessageEntry) (pts ptsCount : Int32)
  | deleteMessages (messages : List Int32) (pts ptsCount : Int32)
deriving DecidableEq, Inhabited

/-- A batch of updates. -/
inductive Updates where
  | tooLong
  | short (update : Update) (date : Int32)
  | combined (updates : List Update) (users : List UserEntry) (chats : List ChatEntry)
      (date seqStart seq : Int32)
  | batch (updates : List Update) (users : List UserEntry) (chats : List ChatEntry)
      (date seq : Int32)
  | shortSentMessage (out : Bool) (id pts date : Int32)
deriving DecidableEq, Inhabited

namespace Updates

/-- The users a batch carries. -/
def users : Updates → List UserEntry
  | .combined _ users _ _ _ _ | .batch _ users _ _ _ => users
  | _ => []

/-- The chats a batch carries. -/
def chats : Updates → List ChatEntry
  | .combined _ _ chats _ _ _ | .batch _ _ chats _ _ => chats
  | _ => []

/-- The single updates of a batch, in order. -/
def toList : Updates → List Update
  | .short update _ => [update]
  | .combined updates .. | .batch updates .. => updates
  | .tooLong | .shortSentMessage .. => []

end Updates

/-- How far an account's updates have been read. -/
structure UpdatesState where
  pts : Int32
  qts : Int32
  date : Int32
  seq : Int32
  unreadCount : Int32
deriving DecidableEq, Inhabited

/-- The updates missed since a state. -/
structure MissedUpdates where
  newMessages : List MessageEntry
  otherUpdates : List Update
  chats : List ChatEntry
  users : List UserEntry
  state : UpdatesState
deriving DecidableEq, Inhabited

/-- The answer to a request for missed updates. -/
inductive Difference where
  | empty (date seq : Int32)
  | difference (d : MissedUpdates)
  | slice (d : MissedUpdates)
  | tooLong (pts : Int32)
deriving DecidableEq, Inhabited

end Telebridge
