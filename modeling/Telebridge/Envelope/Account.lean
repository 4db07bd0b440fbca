import Telebridge.Json.Record
import Telebridge.Text.Blank
set_option autoImplicit false

/-! # Participants and conversations

Who takes part in a conversation, and the conversation that the gateway keeps for a chat, with their
JSON forms. A zero id and empty names are left out where the reader has them as defaults. -/

namespace Telebridge.Envelope

/-- A text field that is left out when it is empty. -/
def textField (name value : String) : List (String × Json) :=
  if value.isEmpty then [] else [(name, Json.str value)]

/-! ## Accounts -/

/-- The identity of a participant on some channel. -/
structure Account where
  id : Int64 := 0
  channel : String := ""
  contact : String := ""
  firstName : String := ""
  lastName : String := ""
  username : String := ""
deriving DecidableEq, Inhabited

namespace Account

/-- First and last name, or the username if both are blank. -/
def displayName (a : Account) : String :=
  let name := Text.trim (a.firstName ++ " " ++ a.lastName)
  if name.isEmpty then a.username else name

/-- The JSON form. -/
def toJson (a : Account) : Json :=
  Json.obj <|
    (if a.id = 0 then [] else [("id", .integer a.id.toInt)]) ++
    [("channel", Json.str a.channel), ("contact", Json.str a.contact)] ++
    textField "first_name" a.firstName ++ textField "last_name" a.lastName ++
    textField "username" a.username

/-- Reads the JSON form. -/
def ofJson? (v : Json) : Option Account := do
  match ← Json.record? ["id", "channel", "contact", "first_name", "last_name", "username"] v with
  | [id, channel, contact, firstName, lastName, username] =>
    some {
      id := ← Json.optional 0 Json.asInt64? id
      channel := ← Json.required Json.asString? channel
      contact := ← Json.required Json.asString? contact
      firstName := ← Json.optional "" Json.asString? firstName
      lastName := ← Json.optional "" Json.asString? lastName
      username := ← Json.optional "" Json.asString? username }
  | _ => none

end Account

/-! ## Channels -/

/-- The conversation that the gateway keeps for a chat. -/
structure Channel where
  id : Int64 := 0
  chatId : String := ""
  contact : Account := {}
  isNew : Bool := false
deriving DecidableEq, Inhabited

namespace Channel

/-- The JSON form. -/
def toJson (c : Channel) : Json :=
  Json.obj [("id", .integer c.id.toInt), ("chat_id", Json.str c.chatId),
    ("contact", c.contact.toJson), ("is_new", .bool c.isNew)]

/-- Reads the JSON form. -/
def ofJson? (v : Json) : Option Channel := do
  match ← Json.record? ["id", "chat_id", "contact", "is_new"] v with
  | [id, chatId, contact, isNew] =>
    some {
      id := ← Json.required Json.asInt64? id
      chatId := ← Json.required Json.asString? chatId
      contact := ← Json.required Account.ofJson? contact
      isNew := ← Json.optional false Json.asBool? isNew }
  | _ => none

end Channel

end Telebridge.Envelope
