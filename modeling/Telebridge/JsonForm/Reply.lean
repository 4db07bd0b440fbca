import Telebridge.JsonForm.Request
set_option autoImplicit false

/-! # The JSON form of replies

A reply is written as its kind and its value. -/

namespace Telebridge

open Json (variant nullable list int32 int64 str)
open JsonForm (bytes bytes? getBytes)

/-- The fields of what a reply mentions. -/
def mentionFields (chats : List ChatEntry) (users : List UserEntry) : List (String × Json) :=
  [("chats", list ChatEntry.toJson chats), ("users", list UserEntry.toJson users)]

/-- Writes a part of a file. -/
def FileReply.toJson : FileReply → Json
  | .part type mtime data => variant "File"
      [("type", type.toJson), ("mtime", int32 mtime), ("bytes", bytes data)]
  | .cdnRedirect dc token key iv => variant "CdnRedirect" [
      ("dc_id", int32 dc), ("file_token", bytes token), ("encryption_key", bytes key),
      ("encryption_iv", bytes iv)]

/-- Reads a part of a file. -/
def FileReply.ofJson? (v : Json) : Option FileReply := do
  match ← v.variant? with
  | "File" =>
    return .part (← v.need "type" FileType.ofJson?) (← v.getInt32 "mtime") (← getBytes v "bytes")
  | "CdnRedirect" =>
    return .cdnRedirect (← v.getInt32 "dc_id") (← getBytes v "file_token")
      (← getBytes v "encryption_key") (← getBytes v "encryption_iv")
  | _ => none

/-- Writes the value of a reply. -/
def ReplyKind.valueToJson : (kind : ReplyKind) → kind.Value → Json
  | .bool, (b : Bool) => .bool b
  | .sentCode, (s : SentCode) => s.toJson
  | .authorization, (a : AuthorizationReply) => a.toJson
  | .loggedOut, (token : Option ByteArray) =>
    variant "LoggedOut" [("future_auth_token", nullable bytes token)]
  | .password, (p : PasswordChallenge) => p.toJson
  | .users, (entries : List UserEntry) => list UserEntry.toJson entries
  | .userFull, (u : UserFullReply) => variant "UserFull" <|
      ("full_user", variant "UserFull" u.fullUser.fields) :: mentionFields u.chats u.users
  | .chatFull, (c : ChatFullReply) => variant "ChatFull" <|
      ("full_chat", c.fullChat.toJson) :: mentionFields c.chats c.users
  | .resolvedPeer, (r : ResolvedPeer) => variant "ResolvedPeer" <|
      ("peer", r.peer.toJson) :: mentionFields r.chats r.users
  | .dialogs, (page : DialogPage) => page.toJson
  | .peerDialogs, (d : DialogList) => variant "PeerDialogs" d.fields
  | .updates, (u : Updates) => u.toJson
  | .affectedMessages, ((pts, count) : Int32 × Int32) =>
    variant "AffectedMessages" (countFields pts count)
  | .file, (f : FileReply) => f.toJson
  | .state, (s : UpdatesState) => s.toJson
  | .difference, (d : Difference) => d.toJson

/-- Reads the value of a reply. -/
def ReplyKind.valueOfJson? (v : Json) : (kind : ReplyKind) → Option kind.Value
  | .bool => Json.asBool? v
  | .sentCode => SentCode.ofJson? v
  | .authorization => AuthorizationReply.ofJson? v
  | .loggedOut => v.find "future_auth_token" bytes?
  | .password => PasswordChallenge.ofJson? v
  | .users => Json.asList? UserEntry.ofJson? v
  | .userFull => do
    let reply : UserFullReply := ⟨← v.need "full_user" UserFull.ofJson?,
      ← v.getList "chats" ChatEntry.ofJson?, ← v.getList "users" UserEntry.ofJson?⟩
    return reply
  | .chatFull => do
    let reply : ChatFullReply := ⟨← v.need "full_chat" FullChat.ofJson?,
      ← v.getList "chats" ChatEntry.ofJson?, ← v.getList "users" UserEntry.ofJson?⟩
    return reply
  | .resolvedPeer => do
    let reply : ResolvedPeer := ⟨← v.need "peer" Peer.ofJson?,
      ← v.getList "chats" ChatEntry.ofJson?, ← v.getList "users" UserEntry.ofJson?⟩
    return reply
  | .dialogs => DialogPage.ofJson? v
  | .peerDialogs => DialogList.ofJson? v
  | .updates => Updates.ofJson? v
  | .affectedMessages => do
    let reply : Int32 × Int32 := (← v.getInt32 "pts", ← v.getInt32 "pts_count")
    return reply
  | .file => FileReply.ofJson? v
  | .state => UpdatesState.ofJson? v
  | .difference => Difference.ofJson? v

/-- All kinds of reply. -/
def ReplyKind.all : List ReplyKind := [
  .bool, .sentCode, .authorization, .loggedOut, .password, .users, .userFull, .chatFull,
  .resolvedPeer, .dialogs, .peerDialogs, .updates, .affectedMessages, .file, .state, .difference]

/-- Writes a reply. -/
def Reply.toJson (r : Reply) : Json :=
  Json.obj [("kind", str r.kind.name), ("value", r.kind.valueToJson r.value)]

/-- Reads a reply. -/
def Reply.ofJson? (v : Json) : Option Reply := do
  let name ← v.need "kind" Json.asString?
  let kind ← ReplyKind.all.find? fun k => k.name = name
  return ⟨kind, ← v.need "value" kind.valueOfJson?⟩

end Telebridge
