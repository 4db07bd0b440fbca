import Telebridge.JsonForm.Field
import Telebridge.Schema.Entity
set_option autoImplicit false

/-! # The JSON form of peers and entities

How peers, users, groups and channels are written in JSON. -/

namespace Telebridge

open Json (variant nullable list int32 int64 str)

/-! ## Peers -/

/-- Writes a peer. -/
def Peer.toJson : Peer → Json
  | .user id => variant "User" [("user_id", int64 id)]
  | .chat id => variant "Chat" [("chat_id", int64 id)]
  | .channel id => variant "Channel" [("channel_id", int64 id)]

/-- Reads a peer. -/
def Peer.ofJson? (v : Json) : Option Peer := do
  match ← v.variant? with
  | "User" => return .user (← v.getInt64 "user_id")
  | "Chat" => return .chat (← v.getInt64 "chat_id")
  | "Channel" => return .channel (← v.getInt64 "channel_id")
  | _ => none

/-- Writes an addressee. -/
def InputPeer.toJson : InputPeer → Json
  | .empty => variant "Empty" []
  | .self => variant "PeerSelf" []
  | .user id hash => variant "User" [("user_id", int64 id), ("access_hash", int64 hash)]
  | .chat id => variant "Chat" [("chat_id", int64 id)]
  | .channel id hash => variant "Channel" [("channel_id", int64 id), ("access_hash", int64 hash)]

/-- Reads an addressee. -/
def InputPeer.ofJson? (v : Json) : Option InputPeer := do
  match ← v.variant? with
  | "Empty" => return .empty
  | "PeerSelf" => return .self
  | "User" => return .user (← v.getInt64 "user_id") (← v.getInt64 "access_hash")
  | "Chat" => return .chat (← v.getInt64 "chat_id")
  | "Channel" => return .channel (← v.getInt64 "channel_id") (← v.getInt64 "access_hash")
  | _ => none

/-- Writes a named user. -/
def InputUser.toJson : InputUser → Json
  | .empty => variant "Empty" []
  | .self => variant "UserSelf" []
  | .user id hash => variant "User" [("user_id", int64 id), ("access_hash", int64 hash)]

/-- Reads a named user. -/
def InputUser.ofJson? (v : Json) : Option InputUser := do
  match ← v.variant? with
  | "Empty" => return .empty
  | "UserSelf" => return .self
  | "User" => return .user (← v.getInt64 "user_id") (← v.getInt64 "access_hash")
  | _ => none

/-- Writes a named channel. -/
def InputChannel.toJson : InputChannel → Json
  | .empty => variant "Empty" []
  | .channel id hash => variant "Channel" [("channel_id", int64 id), ("access_hash", int64 hash)]

/-- Reads a named channel. -/
def InputChannel.ofJson? (v : Json) : Option InputChannel := do
  match ← v.variant? with
  | "Empty" => return .empty
  | "Channel" => return .channel (← v.getInt64 "channel_id") (← v.getInt64 "access_hash")
  | _ => none

/-! ## Users -/

/-- The fields of a user. -/
def User.fields (u : User) : List (String × Json) := [
  ("is_self", .bool u.isSelf), ("contact", .bool u.contact), ("bot", .bool u.bot),
  ("deleted", .bool u.deleted), ("id", int64 u.id), ("access_hash", nullable int64 u.accessHash),
  ("first_name", nullable str u.firstName), ("last_name", nullable str u.lastName),
  ("username", nullable str u.username), ("phone", nullable str u.phone)]

/-- Reads a user. -/
def User.ofJson? (v : Json) : Option User := do
  return {
    isSelf := ← v.getBool "is_self"
    contact := ← v.getBool "contact"
    bot := ← v.getBool "bot"
    deleted := ← v.getBool "deleted"
    id := ← v.getInt64 "id"
    accessHash := ← v.find "access_hash" Json.asInt64?
    firstName := ← v.find "first_name" Json.asString?
    lastName := ← v.find "last_name" Json.asString?
    username := ← v.find "username" Json.asString?
    phone := ← v.find "phone" Json.asString? }

/-- Writes a listed user. -/
def UserEntry.toJson : UserEntry → Json
  | .empty id => variant "Empty" [("id", int64 id)]
  | .user u => variant "User" u.fields

/-- Reads a listed user. -/
def UserEntry.ofJson? (v : Json) : Option UserEntry := do
  match ← v.variant? with
  | "Empty" => return .empty (← v.getInt64 "id")
  | "User" => return .user (← User.ofJson? v)
  | _ => none

/-- The fields of the full description of a user. -/
def UserFull.fields (u : UserFull) : List (String × Json) := [
  ("id", int64 u.id), ("about", nullable str u.about),
  ("common_chats_count", int32 u.commonChatsCount)]

/-- Reads the full description of a user. -/
def UserFull.ofJson? (v : Json) : Option UserFull := do
  return ⟨← v.getInt64 "id", ← v.find "about" Json.asString?, ← v.getInt32 "common_chats_count"⟩

/-! ## Groups and channels -/

/-- The fields of a group. -/
def Chat.fields (c : Chat) : List (String × Json) := [
  ("id", int64 c.id), ("title", str c.title),
  ("participants_count", int32 c.participantsCount), ("date", int32 c.date)]

/-- Reads a group. -/
def Chat.ofJson? (v : Json) : Option Chat := do
  return ⟨← v.getInt64 "id", ← v.getString "title", ← v.getInt32 "participants_count",
    ← v.getInt32 "date"⟩

/-- The fields of a channel. -/
def Channel.fields (c : Channel) : List (String × Json) := [
  ("broadcast", .bool c.broadcast), ("megagroup", .bool c.megagroup), ("id", int64 c.id),
  ("access_hash", nullable int64 c.accessHash), ("title", str c.title),
  ("username", nullable str c.username), ("date", int32 c.date)]

/-- Reads a channel. -/
def Channel.ofJson? (v : Json) : Option Channel := do
  return {
    broadcast := ← v.getBool "broadcast"
    megagroup := ← v.getBool "megagroup"
    id := ← v.getInt64 "id"
    accessHash := ← v.find "access_hash" Json.asInt64?
    title := ← v.getString "title"
    username := ← v.find "username" Json.asString?
    date := ← v.getInt32 "date" }

/-- Writes a listed group or channel. -/
def ChatEntry.toJson : ChatEntry → Json
  | .empty id => variant "Empty" [("id", int64 id)]
  | .chat c => variant "Chat" c.fields
  | .forbidden id title => variant "Forbidden" [("id", int64 id), ("title", str title)]
  | .channel c => variant "Channel" c.fields
  | .channelForbidden id hash title =>
    variant "ChannelForbidden"
      [("id", int64 id), ("access_hash", int64 hash), ("title", str title)]

/-- Reads a listed group or channel. -/
def ChatEntry.ofJson? (v : Json) : Option ChatEntry := do
  match ← v.variant? with
  | "Empty" => return .empty (← v.getInt64 "id")
  | "Chat" => return .chat (← Chat.ofJson? v)
  | "Forbidden" => return .forbidden (← v.getInt64 "id") (← v.getString "title")
  | "Channel" => return .channel (← Channel.ofJson? v)
  | "ChannelForbidden" =>
    return .channelForbidden (← v.getInt64 "id") (← v.getInt64 "access_hash")
      (← v.getString "title")
  | _ => none

/-- The fields of the full description of a group. -/
def ChatFull.fields (c : ChatFull) : List (String × Json) :=
  [("id", int64 c.id), ("about", str c.about)]

/-- Reads the full description of a group. -/
def ChatFull.ofJson? (v : Json) : Option ChatFull := do
  return ⟨← v.getInt64 "id", ← v.getString "about"⟩

/-- The fields of the full description of a channel. -/
def ChannelFull.fields (c : ChannelFull) : List (String × Json) := [
  ("id", int64 c.id), ("about", str c.about),
  ("participants_count", nullable int32 c.participantsCount), ("pts", int32 c.pts)]

/-- Reads the full description of a channel. -/
def ChannelFull.ofJson? (v : Json) : Option ChannelFull := do
  return ⟨← v.getInt64 "id", ← v.getString "about", ← v.find "participants_count" Json.asInt32?,
    ← v.getInt32 "pts"⟩

/-- Writes a full description. -/
def FullChat.toJson : FullChat → Json
  | .chat c => variant "ChatFull" c.fields
  | .channel c => variant "ChannelFull" c.fields

/-- Reads a full description. -/
def FullChat.ofJson? (v : Json) : Option FullChat := do
  match ← v.variant? with
  | "ChatFull" => return .chat (← ChatFull.ofJson? v)
  | "ChannelFull" => return .channel (← ChannelFull.ofJson? v)
  | _ => none

end Telebridge
