import Telebridge.JsonForm.Field
import Telebridge.Schema.Media
set_option autoImplicit false

/-! # The JSON form of media

How photos, documents, places, file locations and uploads are written in JSON. -/

namespace Telebridge

open Json (variant nullable list int32 int64 str)
open JsonForm (bytes getBytes)

/-! ## Media of a message -/

/-- Writes a size of a photo. -/
def PhotoSize.toJson : PhotoSize → Json
  | .empty type => variant "Empty" [("type", str type)]
  | .size type w h length =>
    variant "Size" [("type", str type), ("w", int32 w), ("h", int32 h), ("size", int32 length)]
  | .cached type w h data =>
    variant "PhotoCachedSize"
      [("type", str type), ("w", int32 w), ("h", int32 h), ("bytes", bytes data)]
  | .stripped type data => variant "PhotoStrippedSize" [("type", str type), ("bytes", bytes data)]
  | .progressive type w h sizes =>
    variant "Progressive"
      [("type", str type), ("w", int32 w), ("h", int32 h), ("sizes", list int32 sizes)]
  | .path type data => variant "PhotoPathSize" [("type", str type), ("bytes", bytes data)]

/-- Reads a size of a photo. -/
def PhotoSize.ofJson? (v : Json) : Option PhotoSize := do
  let type ← v.getString "type"
  match ← v.variant? with
  | "Empty" => return .empty type
  | "Size" => return .size type (← v.getInt32 "w") (← v.getInt32 "h") (← v.getInt32 "size")
  | "PhotoCachedSize" =>
    return .cached type (← v.getInt32 "w") (← v.getInt32 "h") (← getBytes v "bytes")
  | "PhotoStrippedSize" => return .stripped type (← getBytes v "bytes")
  | "Progressive" =>
    return .progressive type (← v.getInt32 "w") (← v.getInt32 "h")
      (← v.getList "sizes" Json.asInt32?)
  | "PhotoPathSize" => return .path type (← getBytes v "bytes")
  | _ => none

/-- Writes a photo. -/
def PhotoEntry.toJson : PhotoEntry → Json
  | .empty id => variant "Empty" [("id", int64 id)]
  | .photo p => variant "Photo" [
      ("id", int64 p.id), ("access_hash", int64 p.accessHash),
      ("file_reference", bytes p.fileReference), ("date", int32 p.date),
      ("sizes", list PhotoSize.toJson p.sizes), ("dc_id", int32 p.dcId)]

/-- Reads a photo. -/
def PhotoEntry.ofJson? (v : Json) : Option PhotoEntry := do
  match ← v.variant? with
  | "Empty" => return .empty (← v.getInt64 "id")
  | "Photo" =>
    return .photo {
      id := ← v.getInt64 "id"
      accessHash := ← v.getInt64 "access_hash"
      fileReference := ← getBytes v "file_reference"
      date := ← v.getInt32 "date"
      sizes := ← v.getList "sizes" PhotoSize.ofJson?
      dcId := ← v.getInt32 "dc_id" }
  | _ => none

/-- Writes a place, or its absence. -/
def GeoPoint.toJson : Option GeoPoint → Json
  | none => variant "Empty" []
  | some p => variant "GeoPoint" [
      ("long", JsonForm.float p.long), ("lat", JsonForm.float p.lat),
      ("access_hash", int64 p.accessHash),
      ("accuracy_radius", nullable int32 p.accuracyRadius)]

/-- Reads a place, or its absence. -/
def GeoPoint.ofJson? (v : Json) : Option (Option GeoPoint) := do
  match ← v.variant? with
  | "Empty" => return none
  | "GeoPoint" =>
    return some {
      long := ← JsonForm.getFloat v "long"
      lat := ← JsonForm.getFloat v "lat"
      accessHash := ← v.getInt64 "access_hash"
      accuracyRadius := ← v.find "accuracy_radius" Json.asInt32? }
  | _ => none

/-- Writes an attribute of a document. -/
def DocumentAttribute.toJson : DocumentAttribute → Json
  | .imageSize w h => variant "ImageSize" [("w", int32 w), ("h", int32 h)]
  | .animated => variant "Animated" []
  | .sticker s => variant "Sticker" [("mask", .bool s.mask), ("alt", str s.alt)]
  | .video a => variant "Video" [
      ("round_message", .bool a.roundMessage), ("supports_streaming", .bool a.supportsStreaming),
      ("duration", JsonForm.float a.duration), ("w", int32 a.w), ("h", int32 a.h)]
  | .audio a => variant "Audio" [
      ("voice", .bool a.voice), ("duration", int32 a.duration), ("title", nullable str a.title),
      ("performer", nullable str a.performer)]
  | .filename name => variant "Filename" [("file_name", str name)]

/-- Reads an attribute of a document. -/
def DocumentAttribute.ofJson? (v : Json) : Option DocumentAttribute := do
  match ← v.variant? with
  | "ImageSize" => return .imageSize (← v.getInt32 "w") (← v.getInt32 "h")
  | "Animated" => return .animated
  | "Sticker" => return .sticker ⟨← v.getBool "mask", ← v.getString "alt"⟩
  | "Video" =>
    return .video {
      roundMessage := ← v.getBool "round_message"
      supportsStreaming := ← v.getBool "supports_streaming"
      duration := ← JsonForm.getFloat v "duration"
      w := ← v.getInt32 "w"
      h := ← v.getInt32 "h" }
  | "Audio" =>
    return .audio {
      voice := ← v.getBool "voice"
      duration := ← v.getInt32 "duration"
      title := ← v.find "title" Json.asString?
      performer := ← v.find "performer" Json.asString? }
  | "Filename" => return .filename (← v.getString "file_name")
  | _ => none

/-- Writes a document. -/
def DocumentEntry.toJson : DocumentEntry → Json
  | .empty id => variant "Empty" [("id", int64 id)]
  | .document d => variant "Document" [
      ("id", int64 d.id), ("access_hash", int64 d.accessHash),
      ("file_reference", bytes d.fileReference), ("date", int32 d.date),
      ("mime_type", str d.mimeType), ("size", int64 d.size),
      ("thumbs", nullable (list PhotoSize.toJson) d.thumbs), ("dc_id", int32 d.dcId),
      ("attributes", list DocumentAttribute.toJson d.attributes)]

/-- Reads a document. -/
def DocumentEntry.ofJson? (v : Json) : Option DocumentEntry := do
  match ← v.variant? with
  | "Empty" => return .empty (← v.getInt64 "id")
  | "Document" =>
    return .document {
      id := ← v.getInt64 "id"
      accessHash := ← v.getInt64 "access_hash"
      fileReference := ← getBytes v "file_reference"
      date := ← v.getInt32 "date"
      mimeType := ← v.getString "mime_type"
      size := ← v.getInt64 "size"
      thumbs := ← v.find "thumbs" (Json.asList? PhotoSize.ofJson?)
      dcId := ← v.getInt32 "dc_id"
      attributes := ← v.getList "attributes" DocumentAttribute.ofJson? }
  | _ => none

/-- Writes the media of a message. -/
def MessageMedia.toJson : MessageMedia → Json
  | .empty => variant "Empty" []
  | .photo p ttl => variant "Photo"
      [("photo", nullable PhotoEntry.toJson p), ("ttl_seconds", nullable int32 ttl)]
  | .geo point => variant "Geo" [("geo", GeoPoint.toJson point)]
  | .contact c => variant "Contact" [
      ("phone_number", str c.phoneNumber), ("first_name", str c.firstName),
      ("last_name", str c.lastName), ("vcard", str c.vcard), ("user_id", int64 c.userId)]
  | .unsupported => variant "Unsupported" []
  | .document d ttl => variant "Document"
      [("document", nullable DocumentEntry.toJson d), ("ttl_seconds", nullable int32 ttl)]
  | .webPage => variant "WebPage" []
  | .venue => variant "Venue" []
  | .game => variant "Game" []
  | .invoice => variant "Invoice" []
  | .geoLive => variant "GeoLive" []
  | .poll => variant "Poll" []
  | .dice => variant "Dice" []

/-- Reads the media of a message. -/
def MessageMedia.ofJson? (v : Json) : Option MessageMedia := do
  match ← v.variant? with
  | "Empty" => return .empty
  | "Photo" =>
    return .photo (← v.find "photo" PhotoEntry.ofJson?) (← v.find "ttl_seconds" Json.asInt32?)
  | "Geo" => return .geo (← v.need "geo" GeoPoint.ofJson?)
  | "Contact" =>
    return .contact {
      phoneNumber := ← v.getString "phone_number"
      firstName := ← v.getString "first_name"
      lastName := ← v.getString "last_name"
      vcard := ← v.getString "vcard"
      userId := ← v.getInt64 "user_id" }
  | "Unsupported" => return .unsupported
  | "Document" =>
    return .document (← v.find "document" DocumentEntry.ofJson?)
      (← v.find "ttl_seconds" Json.asInt32?)
  | "WebPage" => return .webPage
  | "Venue" => return .venue
  | "Game" => return .game
  | "Invoice" => return .invoice
  | "GeoLive" => return .geoLive
  | "Poll" => return .poll
  | "Dice" => return .dice
  | _ => none

/-! ## File transfer -/

/-- The fields of a file's address. -/
def FileAddress.fields (a : FileAddress) : List (String × Json) := [
  ("id", int64 a.id), ("access_hash", int64 a.accessHash),
  ("file_reference", bytes a.fileReference), ("thumb_size", str a.thumbSize)]

/-- Reads a file's address. -/
def FileAddress.ofJson? (v : Json) : Option FileAddress := do
  return ⟨← v.getInt64 "id", ← v.getInt64 "access_hash", ← getBytes v "file_reference",
    ← v.getString "thumb_size"⟩

/-- Writes the location of a file. -/
def FileLocation.toJson : FileLocation → Json
  | .photo a => variant "InputPhotoFileLocation" a.fields
  | .document a => variant "InputDocumentFileLocation" a.fields

/-- Reads the location of a file. -/
def FileLocation.ofJson? (v : Json) : Option FileLocation := do
  match ← v.variant? with
  | "InputPhotoFileLocation" => return .photo (← FileAddress.ofJson? v)
  | "InputDocumentFileLocation" => return .document (← FileAddress.ofJson? v)
  | _ => none

/-- The types of file and their names. -/
def FileType.named : List (FileType × String) := [
  (.unknown, "Unknown"), (.partialFile, "Partial"), (.jpeg, "Jpeg"), (.gif, "Gif"), (.png, "Png"),
  (.pdf, "Pdf"), (.mp3, "Mp3"), (.mov, "Mov"), (.mp4, "Mp4"), (.webp, "Webp")]

/-- Writes a type of file. -/
def FileType.toJson (t : FileType) : Json :=
  variant (((named.find? fun e => e.1 = t).map Prod.snd).getD "") []

/-- Reads a type of file. -/
def FileType.ofJson? (v : Json) : Option FileType := do
  let name ← v.variant?
  (named.find? fun e => e.2 = name).map Prod.fst

/-- Writes an uploaded file. -/
def InputFile.toJson : InputFile → Json
  | .small id parts name checksum => variant "InputFile"
      [("id", int64 id), ("parts", int32 parts), ("name", str name), ("md5_checksum", str checksum)]
  | .big id parts name => variant "Big"
      [("id", int64 id), ("parts", int32 parts), ("name", str name)]

/-- Reads an uploaded file. -/
def InputFile.ofJson? (v : Json) : Option InputFile := do
  match ← v.variant? with
  | "InputFile" =>
    return .small (← v.getInt64 "id") (← v.getInt32 "parts") (← v.getString "name")
      (← v.getString "md5_checksum")
  | "Big" => return .big (← v.getInt64 "id") (← v.getInt32 "parts") (← v.getString "name")
  | _ => none

/-- Writes uploaded media. -/
def InputMedia.toJson : InputMedia → Json
  | .photo spoiler file ttl => variant "UploadedPhoto"
      [("spoiler", .bool spoiler), ("file", file.toJson), ("ttl_seconds", nullable int32 ttl)]
  | .document d => variant "UploadedDocument" [
      ("nosound_video", .bool d.nosoundVideo), ("force_file", .bool d.forceFile),
      ("file", d.file.toJson), ("mime_type", str d.mimeType),
      ("attributes", list DocumentAttribute.toJson d.attributes)]

/-- Reads uploaded media. -/
def InputMedia.ofJson? (v : Json) : Option InputMedia := do
  match ← v.variant? with
  | "UploadedPhoto" =>
    return .photo (← v.getBool "spoiler") (← v.need "file" InputFile.ofJson?)
      (← v.find "ttl_seconds" Json.asInt32?)
  | "UploadedDocument" =>
    return .document {
      nosoundVideo := ← v.getBool "nosound_video"
      forceFile := ← v.getBool "force_file"
      file := ← v.need "file" InputFile.ofJson?
      mimeType := ← v.getString "mime_type"
      attributes := ← v.getList "attributes" DocumentAttribute.ofJson? }
  | _ => none

end Telebridge
