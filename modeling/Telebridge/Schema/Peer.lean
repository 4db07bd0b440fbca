set_option autoImplicit false

/-! # Peers

A peer is a user, a basic group or a channel. It is named by kind and id; to address it in a request
an access hash is needed as well, except for groups. -/

namespace Telebridge

/-- A user, group or channel by id. -/
inductive Peer where
  | user (id : Int64)
  | chat (id : Int64)
  | channel (id : Int64)
deriving DecidableEq, Inhabited

/-- The id, whatever the kind. -/
def Peer.id : Peer → Int64
  | .user id | .chat id | .channel id => id

/-- The addressee of a request. -/
inductive InputPeer where
  | empty
  | self
  | user (id accessHash : Int64)
  | chat (id : Int64)
  | channel (id accessHash : Int64)
deriving DecidableEq, Inhabited

/-- A user named in a request. -/
inductive InputUser where
  | empty
  | self
  | user (id accessHash : Int64)
deriving DecidableEq, Inhabited

/-- A channel named in a request. -/
inductive InputChannel where
  | empty
  | channel (id accessHash : Int64)
deriving DecidableEq, Inhabited

end Telebridge
