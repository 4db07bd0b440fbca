import Telebridge.Json.Record
set_option autoImplicit false

/-! # Files in the object storage

Attachments as the conversation service sees them, and what is exchanged with the object storage when
one is uploaded, with their JSON forms. -/

namespace Telebridge.Envelope

/-! ## Attachments -/

/-- An attachment in the object storage. -/
structure File where
  id : Int64 := 0
  url : String := ""
  mime : String := ""
  name : String := ""
  size : Int64 := 0
  malware : Bool := false
deriving DecidableEq, Inhabited

namespace File

/-- The JSON form. -/
def toJson (f : File) : Json :=
  Json.obj [("id", .integer f.id.toInt), ("url", Json.str f.url), ("mime", Json.str f.mime),
    ("name", Json.str f.name), ("size", .integer f.size.toInt), ("malware", .bool f.malware)]

/-- Reads the JSON form. -/
def ofJson? (v : Json) : Option File := do
  match ← Json.record? ["id", "url", "mime", "name", "size", "malware"] v with
  | [id, url, mime, name, size, malware] =>
    some {
      id := ← Json.required Json.asInt64? id
      url := ← Json.required Json.asString? url
      mime := ← Json.required Json.asString? mime
      name := ← Json.required Json.asString? name
      size := ← Json.required Json.asInt64? size
      malware := ← Json.optional false Json.asBool? malware }
  | _ => none

end File

/-! ## Uploads -/

/-- What opens an upload to the object storage. -/
structure UploadHeader where
  domainId : Int64 := 0
  mime : String := ""
  name : String := ""
  uuid : String := ""
deriving DecidableEq, Inhabited

namespace UploadHeader

/-- The JSON form. -/
def toJson (h : UploadHeader) : Json :=
  Json.obj [("domain_id", .integer h.domainId.toInt), ("mime", Json.str h.mime),
    ("name", Json.str h.name), ("uuid", Json.str h.uuid)]

/-- Reads the JSON form. -/
def ofJson? (v : Json) : Option UploadHeader := do
  match ← Json.record? ["domain_id", "mime", "name", "uuid"] v with
  | [domainId, mime, name, uuid] =>
    some {
      domainId := ← Json.required Json.asInt64? domainId
      mime := ← Json.required Json.asString? mime
      name := ← Json.required Json.asString? name
      uuid := ← Json.required Json.asString? uuid }
  | _ => none

end UploadHeader

/-- What the object storage says when an upload is closed. -/
structure StoredFile where
  id : Int64 := 0
  url : String := ""
  size : Int64 := 0
  malware : Bool := false
deriving DecidableEq, Inhabited

namespace StoredFile

/-- The JSON form. -/
def toJson (f : StoredFile) : Json :=
  Json.obj [("id", .integer f.id.toInt), ("url", Json.str f.url), ("size", .integer f.size.toInt),
    ("malware", .bool f.malware)]

/-- Reads the JSON form. -/
def ofJson? (v : Json) : Option StoredFile := do
  match ← Json.record? ["id", "url", "size", "malware"] v with
  | [id, url, size, malware] =>
    some {
      id := ← Json.required Json.asInt64? id
      url := ← Json.required Json.asString? url
      size := ← Json.required Json.asInt64? size
      malware := ← Json.optional false Json.asBool? malware }
  | _ => none

end StoredFile

end Telebridge.Envelope
