import Telebridge.Data.Table
import Telebridge.Envelope.Account
import Telebridge.Envelope.File
set_option autoImplicit false

/-! # Messages of the conversation service

Messages and what wraps them in transit, with their JSON forms. Zero ids, empty texts, absent parts and
empty maps are left out where the reader has them as defaults. -/

namespace Telebridge.Envelope

/-! ## Messages -/

/-- What a message is about. -/
inductive MessageKind where
  | text
  | file
  | contact
deriving DecidableEq, Inhabited

namespace MessageKind

/-- The word for a kind. -/
def word : MessageKind → String
  | .text => "text"
  | .file => "file"
  | .contact => "contact"

/-- Reads the word for a kind. -/
def ofJson? (v : Json) : Option MessageKind := do
  let w ← Json.asWord? v
  [MessageKind.text, .file, .contact].find? fun k => k.word = w

end MessageKind

/-- A message. -/
structure Message where
  id : Int64 := 0
  kind : MessageKind := .text
  text : String := ""
  file : Option File := none
  contact : Option Account := none
  vars : Table String String := Table.empty
deriving DecidableEq, Inhabited

/-- The JSON form of a map of texts. -/
def variablesToJson (t : Table String String) : Json :=
  Json.obj (t.toList.map fun e => (e.1, Json.str e.2))

/-- Reads a map of texts; of two entries with one key the later counts. -/
def variablesOfJson? (v : Json) : Option (Table String String) := do
  let fields ← Json.asFields? v
  let entries ← fields.mapM fun f => (Json.asString? f.2).map fun s => (f.1, s)
  some (Table.ofList entries)

namespace Message

/-- A text message. -/
def ofText (text : String) : Message :=
  { kind := .text, text }

/-- A file with a caption. -/
def ofFile (file : File) (caption : String) : Message :=
  { kind := .file, text := caption, file := some file }

/-- The JSON form. -/
def toJson (m : Message) : Json :=
  Json.obj <|
    [("id", .integer m.id.toInt), ("type", Json.str m.kind.word)] ++ textField "text" m.text ++
    (m.file.map fun f => ("file", f.toJson)).toList ++
    (m.contact.map fun a => ("contact", a.toJson)).toList ++
    (if m.vars.isEmpty then [] else [("variables", variablesToJson m.vars)])

/-- Reads the JSON form. -/
def ofJson? (v : Json) : Option Message := do
  match ← Json.record? ["id", "type", "text", "file", "contact", "variables"] v with
  | [id, kind, text, file, contact, vars] =>
    some {
      id := ← Json.optional 0 Json.asInt64? id
      kind := ← Json.required MessageKind.ofJson? kind
      text := ← Json.optional "" Json.asString? text
      file := ← Json.optional none (Json.asNullable? File.ofJson?) file
      contact := ← Json.optional none (Json.asNullable? Account.ofJson?) contact
      vars := ← Json.optional Table.empty variablesOfJson? vars }
  | _ => none

end Message

/-! ## Updates -/

/-- A message in its conversation. -/
structure Update where
  id : Int64 := 0
  chat : Channel := {}
  message : Message := {}
deriving DecidableEq, Inhabited

namespace Update

/-- The JSON form. -/
def toJson (u : Update) : Json :=
  Json.obj [("id", .integer u.id.toInt), ("chat", u.chat.toJson), ("message", u.message.toJson)]

/-- Reads the JSON form. -/
def ofJson? (v : Json) : Option Update := do
  match ← Json.record? ["id", "chat", "message"] v with
  | [id, chat, message] =>
    some {
      id := ← Json.optional 0 Json.asInt64? id
      chat := ← Json.required Channel.ofJson? chat
      message := ← Json.required Message.ofJson? message }
  | _ => none

end Update

end Telebridge.Envelope
