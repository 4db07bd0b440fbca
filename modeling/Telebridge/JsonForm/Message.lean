import Telebridge.JsonForm.Entity
import Telebridge.JsonForm.Media
import Telebridge.Schema.Message
set_option autoImplicit false

/-! # The JSON form of messages and updates

How messages, dialogs, updates and their batches are written in JSON. -/

namespace Telebridge

open Json (variant nullable list int32 int64 str)

/-! ## Messages -/

/-- Writes a listed message. -/
def MessageEntry.toJson : MessageEntry → Json
  | .empty id peer => variant "Empty" [("id", int32 id), ("peer_id", nullable Peer.toJson peer)]
  | .message m => variant "Message" [
      ("out", .bool m.out), ("id", int32 m.id), ("from_id", nullable Peer.toJson m.fromId),
      ("peer_id", m.peerId.toJson), ("date", int32 m.date), ("message", str m.message),
      ("media", nullable MessageMedia.toJson m.media)]
  | .service out id peer day => variant "Service"
      [("out", .bool out), ("id", int32 id), ("peer_id", peer.toJson), ("date", int32 day)]

/-- Reads a listed message. -/
def MessageEntry.ofJson? (v : Json) : Option MessageEntry := do
  match ← v.variant? with
  | "Empty" => return .empty (← v.getInt32 "id") (← v.find "peer_id" Peer.ofJson?)
  | "Message" =>
    return .message {
      out := ← v.getBool "out"
      id := ← v.getInt32 "id"
      fromId := ← v.find "from_id" Peer.ofJson?
      peerId := ← v.need "peer_id" Peer.ofJson?
      date := ← v.getInt32 "date"
      message := ← v.getString "message"
      media := ← v.find "media" MessageMedia.ofJson? }
  | "Service" =>
    return .service (← v.getBool "out") (← v.getInt32 "id") (← v.need "peer_id" Peer.ofJson?)
      (← v.getInt32 "date")
  | _ => none

/-! ## Dialogs -/

/-- Writes a dialog. -/
def Dialog.toJson : Dialog → Json
  | .dialog pinned peer top unread pts => variant "Dialog" [
      ("pinned", .bool pinned), ("peer", peer.toJson), ("top_message", int32 top),
      ("unread_count", int32 unread), ("pts", nullable int32 pts)]
  | .folder id top => variant "Folder" [("folder_id", int32 id), ("top_message", int32 top)]

/-- Reads a dialog. -/
def Dialog.ofJson? (v : Json) : Option Dialog := do
  match ← v.variant? with
  | "Dialog" =>
    return .dialog (← v.getBool "pinned") (← v.need "peer" Peer.ofJson?)
      (← v.getInt32 "top_message") (← v.getInt32 "unread_count") (← v.find "pts" Json.asInt32?)
  | "Folder" => return .folder (← v.getInt32 "folder_id") (← v.getInt32 "top_message")
  | _ => none

/-- The fields of a list of dialogs. -/
def DialogList.fields (d : DialogList) : List (String × Json) := [
  ("dialogs", list Dialog.toJson d.dialogs), ("messages", list MessageEntry.toJson d.messages),
  ("chats", list ChatEntry.toJson d.chats), ("users", list UserEntry.toJson d.users)]

/-- Reads a list of dialogs. -/
def DialogList.ofJson? (v : Json) : Option DialogList := do
  return ⟨← v.getList "dialogs" Dialog.ofJson?, ← v.getList "messages" MessageEntry.ofJson?,
    ← v.getList "chats" ChatEntry.ofJson?, ← v.getList "users" UserEntry.ofJson?⟩

/-- Writes a page of dialogs. -/
def DialogPage.toJson : DialogPage → Json
  | .full d => variant "Dialogs" d.fields
  | .slice count d => variant "Slice" (("count", int32 count) :: d.fields)
  | .notModified count => variant "NotModified" [("count", int32 count)]

/-- Reads a page of dialogs. -/
def DialogPage.ofJson? (v : Json) : Option DialogPage := do
  match ← v.variant? with
  | "Dialogs" => return .full (← DialogList.ofJson? v)
  | "Slice" => return .slice (← v.getInt32 "count") (← DialogList.ofJson? v)
  | "NotModified" => return .notModified (← v.getInt32 "count")
  | _ => none

/-! ## Updates -/

/-- The fields that count updates. -/
def countFields (pts ptsCount : Int32) : List (String × Json) :=
  [("pts", int32 pts), ("pts_count", int32 ptsCount)]

/-- Writes an update. -/
def Update.toJson : Update → Json
  | .newMessage m pts n => variant "NewMessage" (("message", m.toJson) :: countFields pts n)
  | .newChannelMessage m pts n =>
    variant "NewChannelMessage" (("message", m.toJson) :: countFields pts n)
  | .editMessage m pts n => variant "EditMessage" (("message", m.toJson) :: countFields pts n)
  | .deleteMessages ids pts n =>
    variant "DeleteMessages" (("messages", list int32 ids) :: countFields pts n)

/-- Reads an update. -/
def Update.ofJson? (v : Json) : Option Update := do
  let pts ← v.getInt32 "pts"
  let n ← v.getInt32 "pts_count"
  match ← v.variant? with
  | "NewMessage" => return .newMessage (← v.need "message" MessageEntry.ofJson?) pts n
  | "NewChannelMessage" =>
    return .newChannelMessage (← v.need "message" MessageEntry.ofJson?) pts n
  | "EditMessage" => return .editMessage (← v.need "message" MessageEntry.ofJson?) pts n
  | "DeleteMessages" => return .deleteMessages (← v.getList "messages" Json.asInt32?) pts n
  | _ => none

/-- The fields of a batch with what it mentions. -/
def batchFields (updates : List Update) (users : List UserEntry) (chats : List ChatEntry) :
    List (String × Json) := [
  ("updates", list Update.toJson updates), ("users", list UserEntry.toJson users),
  ("chats", list ChatEntry.toJson chats)]

/-- Writes a batch of updates. -/
def Updates.toJson : Updates → Json
  | .tooLong => variant "TooLong" []
  | .short update date => variant "UpdateShort" [("update", update.toJson), ("date", int32 date)]
  | .combined updates people groups date start seq => variant "Combined" <|
      batchFields updates people groups ++
      [("date", int32 date), ("seq_start", int32 start), ("seq", int32 seq)]
  | .batch updates people groups date seq => variant "Updates" <|
      batchFields updates people groups ++ [("date", int32 date), ("seq", int32 seq)]
  | .shortSentMessage out id pts date => variant "UpdateShortSentMessage"
      [("out", .bool out), ("id", int32 id), ("pts", int32 pts), ("date", int32 date)]

/-- Reads a batch of updates. -/
def Updates.ofJson? (v : Json) : Option Updates := do
  let date ← v.getInt32 "date"
  match ← v.variant? with
  | "TooLong" => return .tooLong
  | "UpdateShort" => return .short (← v.need "update" Update.ofJson?) date
  | "Combined" =>
    return .combined (← v.getList "updates" Update.ofJson?) (← v.getList "users" UserEntry.ofJson?)
      (← v.getList "chats" ChatEntry.ofJson?) date (← v.getInt32 "seq_start") (← v.getInt32 "seq")
  | "Updates" =>
    return .batch (← v.getList "updates" Update.ofJson?) (← v.getList "users" UserEntry.ofJson?)
      (← v.getList "chats" ChatEntry.ofJson?) date (← v.getInt32 "seq")
  | "UpdateShortSentMessage" =>
    return .shortSentMessage (← v.getBool "out") (← v.getInt32 "id") (← v.getInt32 "pts") date
  | _ => none

/-- Writes how far updates have been read. -/
def UpdatesState.toJson (s : UpdatesState) : Json :=
  variant "State" [
    ("pts", int32 s.pts), ("qts", int32 s.qts), ("date", int32 s.date), ("seq", int32 s.seq),
    ("unread_count", int32 s.unreadCount)]

/-- Reads how far updates have been read. -/
def UpdatesState.ofJson? (v : Json) : Option UpdatesState := do
  return ⟨← v.getInt32 "pts", ← v.getInt32 "qts", ← v.getInt32 "date", ← v.getInt32 "seq",
    ← v.getInt32 "unread_count"⟩

/-- The fields of missed updates; `state` is the name of their state. -/
def MissedUpdates.fields (d : MissedUpdates) (state : String) : List (String × Json) := [
  ("new_messages", list MessageEntry.toJson d.newMessages),
  ("other_updates", list Update.toJson d.otherUpdates), ("chats", list ChatEntry.toJson d.chats),
  ("users", list UserEntry.toJson d.users), (state, d.state.toJson)]

/-- Reads missed updates; `state` is the name of their state. -/
def MissedUpdates.ofJson? (v : Json) (state : String) : Option MissedUpdates := do
  return ⟨← v.getList "new_messages" MessageEntry.ofJson?,
    ← v.getList "other_updates" Update.ofJson?, ← v.getList "chats" ChatEntry.ofJson?,
    ← v.getList "users" UserEntry.ofJson?, ← v.need state UpdatesState.ofJson?⟩

/-- Writes the answer to a request for missed updates. -/
def Difference.toJson : Difference → Json
  | .empty date seq => variant "Empty" [("date", int32 date), ("seq", int32 seq)]
  | .difference d => variant "Difference" (d.fields "state")
  | .slice d => variant "Slice" (d.fields "intermediate_state")
  | .tooLong pts => variant "TooLong" [("pts", int32 pts)]

/-- Reads the answer to a request for missed updates. -/
def Difference.ofJson? (v : Json) : Option Difference := do
  match ← v.variant? with
  | "Empty" => return .empty (← v.getInt32 "date") (← v.getInt32 "seq")
  | "Difference" => return .difference (← MissedUpdates.ofJson? v "state")
  | "Slice" => return .slice (← MissedUpdates.ofJson? v "intermediate_state")
  | "TooLong" => return .tooLong (← v.getInt32 "pts")
  | _ => none

end Telebridge
