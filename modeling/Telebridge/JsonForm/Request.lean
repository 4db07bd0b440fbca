import Telebridge.JsonForm.Login
import Telebridge.JsonForm.Message
import Telebridge.Schema.Request
set_option autoImplicit false

/-! # The JSON form of requests

A request is written as its fields and, under `call`, the name of the remote procedure. -/

namespace Telebridge

open Json (variant nullable list int32 int64 str)
open JsonForm (bytes getBytes)

/-- Writes an addressee whose dialog is asked for. -/
def InputPeer.toDialogJson (peer : InputPeer) : Json :=
  variant "Peer" [("peer", peer.toJson)]

/-- Reads an addressee whose dialog is asked for. -/
def InputPeer.ofDialogJson? (v : Json) : Option InputPeer :=
  v.need "peer" InputPeer.ofJson?

/-- The fields of a request. -/
def Request.fields : Request → List (String × Json)
  | .sendCode phone apiId apiHash settings => [
      ("phone_number", str phone), ("api_id", int32 apiId), ("api_hash", str apiHash),
      ("settings", settings.toJson)]
  | .resendCode phone hash | .cancelCode phone hash =>
    [("phone_number", str phone), ("phone_code_hash", str hash)]
  | .signIn phone hash code => [
      ("phone_number", str phone), ("phone_code_hash", str hash),
      ("phone_code", nullable str code)]
  | .checkPassword password => [("password", password.toJson)]
  | .logOut | .getPassword | .getState => []
  | .getUsers ids => [("id", list InputUser.toJson ids)]
  | .getFullUser user => [("id", user.toJson)]
  | .getFullChannel channel => [("channel", channel.toJson)]
  | .resolvePhone phone => [("phone", str phone)]
  | .resolveUsername username => [("username", str username)]
  | .getDialogs q => [
      ("exclude_pinned", .bool q.excludePinned), ("offset_date", int32 q.offsetDate),
      ("offset_id", int32 q.offsetId), ("offset_peer", q.offsetPeer.toJson),
      ("limit", int32 q.limit), ("hash", int64 q.hash)]
  | .getPeerDialogs peers => [("peers", list InputPeer.toDialogJson peers)]
  | .getFullChat id => [("chat_id", int64 id)]
  | .sendMessage m => [
      ("no_webpage", .bool m.noWebpage), ("silent", .bool m.silent), ("peer", m.peer.toJson),
      ("message", str m.message), ("random_id", int64 m.randomId)]
  | .sendMedia m => [
      ("silent", .bool m.silent), ("peer", m.peer.toJson), ("media", m.media.toJson),
      ("message", str m.message), ("random_id", int64 m.randomId)]
  | .readHistory peer maxId => [("peer", peer.toJson), ("max_id", int32 maxId)]
  | .getFile q => [
      ("precise", .bool q.precise), ("cdn_supported", .bool q.cdnSupported),
      ("location", q.location.toJson), ("offset", int64 q.offset), ("limit", int32 q.limit)]
  | .saveFilePart id part data =>
    [("file_id", int64 id), ("file_part", int32 part), ("bytes", bytes data)]
  | .saveBigFilePart id part total data => [
      ("file_id", int64 id), ("file_part", int32 part), ("file_total_parts", int32 total),
      ("bytes", bytes data)]
  | .getDifference pts date qts => [("pts", int32 pts), ("date", int32 date), ("qts", int32 qts)]

/-- Writes a request. -/
def Request.toJson (r : Request) : Json :=
  Json.obj (("call", str r.method) :: r.fields)

/-- Reads a request that concerns the login. -/
def Request.ofLoginJson? (v : Json) (method : String) : Option Request := do
  match method with
  | "auth.sendCode" =>
    return .sendCode (← v.getString "phone_number") (← v.getInt32 "api_id")
      (← v.getString "api_hash") (← v.need "settings" CodeSettings.ofJson?)
  | "auth.resendCode" =>
    return .resendCode (← v.getString "phone_number") (← v.getString "phone_code_hash")
  | "auth.cancelCode" =>
    return .cancelCode (← v.getString "phone_number") (← v.getString "phone_code_hash")
  | "auth.signIn" =>
    return .signIn (← v.getString "phone_number") (← v.getString "phone_code_hash")
      (← v.find "phone_code" Json.asString?)
  | "auth.checkPassword" => return .checkPassword (← v.need "password" PasswordProof.ofJson?)
  | "auth.logOut" => return .logOut
  | "account.getPassword" => return .getPassword
  | _ => none

/-- Reads a request that concerns peers. -/
def Request.ofPeerJson? (v : Json) (method : String) : Option Request := do
  match method with
  | "users.getUsers" => return .getUsers (← v.getList "id" InputUser.ofJson?)
  | "users.getFullUser" => return .getFullUser (← v.get "id" .empty InputUser.ofJson?)
  | "channels.getFullChannel" =>
    return .getFullChannel (← v.get "channel" .empty InputChannel.ofJson?)
  | "contacts.resolvePhone" => return .resolvePhone (← v.getString "phone")
  | "contacts.resolveUsername" => return .resolveUsername (← v.getString "username")
  | _ => none

/-- Reads a request that concerns messages. -/
def Request.ofMessageJson? (v : Json) (method : String) : Option Request := do
  match method with
  | "messages.getDialogs" =>
    return .getDialogs {
      excludePinned := ← v.getBool "exclude_pinned"
      offsetDate := ← v.getInt32 "offset_date"
      offsetId := ← v.getInt32 "offset_id"
      offsetPeer := ← v.get "offset_peer" .empty InputPeer.ofJson?
      limit := ← v.getInt32 "limit"
      hash := ← v.getInt64 "hash" }
  | "messages.getPeerDialogs" =>
    return .getPeerDialogs (← v.getList "peers" InputPeer.ofDialogJson?)
  | "messages.getFullChat" => return .getFullChat (← v.getInt64 "chat_id")
  | "messages.sendMessage" =>
    return .sendMessage {
      noWebpage := ← v.getBool "no_webpage"
      silent := ← v.getBool "silent"
      peer := ← v.get "peer" .empty InputPeer.ofJson?
      message := ← v.getString "message"
      randomId := ← v.getInt64 "random_id" }
  | "messages.sendMedia" =>
    return .sendMedia {
      silent := ← v.getBool "silent"
      peer := ← v.get "peer" .empty InputPeer.ofJson?
      media := ← v.need "media" InputMedia.ofJson?
      message := ← v.getString "message"
      randomId := ← v.getInt64 "random_id" }
  | "messages.readHistory" =>
    return .readHistory (← v.get "peer" .empty InputPeer.ofJson?) (← v.getInt32 "max_id")
  | _ => none

/-- Reads a request that concerns files or updates. -/
def Request.ofTransferJson? (v : Json) (method : String) : Option Request := do
  match method with
  | "upload.getFile" =>
    return .getFile {
      precise := ← v.getBool "precise"
      cdnSupported := ← v.getBool "cdn_supported"
      location := ← v.need "location" FileLocation.ofJson?
      offset := ← v.getInt64 "offset"
      limit := ← v.getInt32 "limit" }
  | "upload.saveFilePart" =>
    return .saveFilePart (← v.getInt64 "file_id") (← v.getInt32 "file_part")
      (← getBytes v "bytes")
  | "upload.saveBigFilePart" =>
    return .saveBigFilePart (← v.getInt64 "file_id") (← v.getInt32 "file_part")
      (← v.getInt32 "file_total_parts") (← getBytes v "bytes")
  | "updates.getState" => return .getState
  | "updates.getDifference" =>
    return .getDifference (← v.getInt32 "pts") (← v.getInt32 "date") (← v.getInt32 "qts")
  | _ => none

/-- Reads a request. -/
def Request.ofJson? (v : Json) : Option Request := do
  let method ← v.need "call" Json.asString?
  ofLoginJson? v method <|> ofPeerJson? v method <|> ofMessageJson? v method <|>
    ofTransferJson? v method

end Telebridge
