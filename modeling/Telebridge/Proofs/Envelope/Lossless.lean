import Telebridge.Envelope.Broadcast
import Telebridge.Envelope.Message
import Telebridge.Gateway.Error
import Telebridge.Proofs.Data.Table
import Telebridge.Proofs.Json.Record
set_option autoImplicit false

/-! # Envelopes survive their text

Every envelope is read back from the JSON text that is written for it. For each of them `fields` says what
is given for its fields; what is left out there is what the reader takes for missing. -/

namespace Telebridge

/-! ## Errors -/

namespace GatewayError

/-- What is given for each field. -/
def fields (e : GatewayError) : List (String × Option Json) :=
  [("id", some (Json.str e.id)), ("code", some (Json.ofUInt16 e.code)),
    ("detail", some (Json.str e.detail))]

theorem faithful : Json.Faithful toJson ofJson? := by
  refine .record fields (by decide) (fun _ => rfl) (fun _ => rfl) (fun _ => rfl) fun e => ?_
  have hid := Json.faithful_str.required e.id
  have hcode := Json.faithful_uint16.required e.code
  have hdetail := Json.faithful_str.required e.detail
  simp only [fields, List.forall_mem_cons, List.map_cons, List.map_nil]
  refine ⟨⟨hid.sound, hcode.sound, hdetail.sound, by simp⟩, ?_⟩
  simp only [hid.read_eq, hcode.read_eq, hdetail.read_eq, Option.bind_eq_bind, Option.bind_some]

end GatewayError

namespace Envelope

open Json (unlessDefault)

/-- A text field is left out when it is empty. -/
theorem textField_eq (name value : String) :
    textField name value = Json.piece (name, unlessDefault "" Json.str value) := by
  unfold textField unlessDefault
  by_cases h : value = ""
  · simp [h]
  · simp [h]

/-! ## Participants and conversations -/

namespace Account

/-- What is given for each field. -/
def fields (a : Account) : List (String × Option Json) :=
  [("id", unlessDefault 0 Json.ofInt64 a.id), ("channel", some (Json.str a.channel)),
    ("contact", some (Json.str a.contact)), ("first_name", unlessDefault "" Json.str a.firstName),
    ("last_name", unlessDefault "" Json.str a.lastName),
    ("username", unlessDefault "" Json.str a.username)]

theorem toJson_eq (a : Account) : a.toJson = Json.ofFields a.fields := by
  have hid : (if a.id = 0 then [] else [("id", Json.integer a.id.toInt)]) =
      Json.piece ("id", unlessDefault 0 Json.ofInt64 a.id) := by
    unfold unlessDefault
    by_cases h : a.id = 0
    · simp [h]
    · simp [h, Json.ofInt64]
  simp [toJson, Json.ofFields, fields, textField_eq, hid]

theorem faithful : Json.Faithful toJson ofJson? := by
  refine .record fields (by decide) toJson_eq (fun _ => rfl) (fun _ => rfl) fun a => ?_
  have hid := Json.faithful_int64.unlessDefault 0 a.id
  have hchannel := Json.faithful_str.required a.channel
  have hcontact := Json.faithful_str.required a.contact
  have hfirst := Json.faithful_str.unlessDefault "" a.firstName
  have hlast := Json.faithful_str.unlessDefault "" a.lastName
  have husername := Json.faithful_str.unlessDefault "" a.username
  simp only [fields, List.forall_mem_cons, List.map_cons, List.map_nil]
  refine ⟨⟨hid.sound, hchannel.sound, hcontact.sound, hfirst.sound, hlast.sound, husername.sound,
    by simp⟩, ?_⟩
  simp only [hid.read_eq, hchannel.read_eq, hcontact.read_eq, hfirst.read_eq, hlast.read_eq,
    husername.read_eq, Option.bind_eq_bind, Option.bind_some]

end Account

namespace Channel

/-- What is given for each field. -/
def fields (c : Channel) : List (String × Option Json) :=
  [("id", some (Json.ofInt64 c.id)), ("chat_id", some (Json.str c.chatId)),
    ("contact", some c.contact.toJson), ("is_new", some (.bool c.isNew))]

theorem faithful : Json.Faithful toJson ofJson? := by
  refine .record fields (by decide) (fun _ => rfl) (fun _ => rfl) (fun _ => rfl) fun c => ?_
  have hid := Json.faithful_int64.required c.id
  have hchat := Json.faithful_str.required c.chatId
  have hcontact := Account.faithful.required c.contact
  have hnew := Json.faithful_bool.optional false c.isNew
  simp only [fields, List.forall_mem_cons, List.map_cons, List.map_nil]
  refine ⟨⟨hid.sound, hchat.sound, hcontact.sound, hnew.sound, by simp⟩, ?_⟩
  simp only [hid.read_eq, hchat.read_eq, hcontact.read_eq, hnew.read_eq, Option.bind_eq_bind,
    Option.bind_some]

end Channel

/-! ## Files -/

namespace File

/-- What is given for each field. -/
def fields (f : File) : List (String × Option Json) :=
  [("id", some (Json.ofInt64 f.id)), ("url", some (Json.str f.url)), ("mime", some (Json.str f.mime)),
    ("name", some (Json.str f.name)), ("size", some (Json.ofInt64 f.size)),
    ("malware", some (.bool f.malware))]

theorem faithful : Json.Faithful toJson ofJson? := by
  refine .record fields (by decide) (fun _ => rfl) (fun _ => rfl) (fun _ => rfl) fun f => ?_
  have hid := Json.faithful_int64.required f.id
  have hurl := Json.faithful_str.required f.url
  have hmime := Json.faithful_str.required f.mime
  have hname := Json.faithful_str.required f.name
  have hsize := Json.faithful_int64.required f.size
  have hmalware := Json.faithful_bool.optional false f.malware
  simp only [fields, List.forall_mem_cons, List.map_cons, List.map_nil]
  refine ⟨⟨hid.sound, hurl.sound, hmime.sound, hname.sound, hsize.sound, hmalware.sound, by simp⟩, ?_⟩
  simp only [hid.read_eq, hurl.read_eq, hmime.read_eq, hname.read_eq, hsize.read_eq, hmalware.read_eq,
    Option.bind_eq_bind, Option.bind_some]

end File

namespace UploadHeader

/-- What is given for each field. -/
def fields (h : UploadHeader) : List (String × Option Json) :=
  [("domain_id", some (Json.ofInt64 h.domainId)), ("mime", some (Json.str h.mime)),
    ("name", some (Json.str h.name)), ("uuid", some (Json.str h.uuid))]

theorem faithful : Json.Faithful toJson ofJson? := by
  refine .record fields (by decide) (fun _ => rfl) (fun _ => rfl) (fun _ => rfl) fun h => ?_
  have hdomain := Json.faithful_int64.required h.domainId
  have hmime := Json.faithful_str.required h.mime
  have hname := Json.faithful_str.required h.name
  have huuid := Json.faithful_str.required h.uuid
  simp only [fields, List.forall_mem_cons, List.map_cons, List.map_nil]
  refine ⟨⟨hdomain.sound, hmime.sound, hname.sound, huuid.sound, by simp⟩, ?_⟩
  simp only [hdomain.read_eq, hmime.read_eq, hname.read_eq, huuid.read_eq, Option.bind_eq_bind,
    Option.bind_some]

end UploadHeader

namespace StoredFile

/-- What is given for each field. -/
def fields (f : StoredFile) : List (String × Option Json) :=
  [("id", some (Json.ofInt64 f.id)), ("url", some (Json.str f.url)), ("size", some (Json.ofInt64 f.size)),
    ("malware", some (.bool f.malware))]

theorem faithful : Json.Faithful toJson ofJson? := by
  refine .record fields (by decide) (fun _ => rfl) (fun _ => rfl) (fun _ => rfl) fun f => ?_
  have hid := Json.faithful_int64.required f.id
  have hurl := Json.faithful_str.required f.url
  have hsize := Json.faithful_int64.required f.size
  have hmalware := Json.faithful_bool.optional false f.malware
  simp only [fields, List.forall_mem_cons, List.map_cons, List.map_nil]
  refine ⟨⟨hid.sound, hurl.sound, hsize.sound, hmalware.sound, by simp⟩, ?_⟩
  simp only [hid.read_eq, hurl.read_eq, hsize.read_eq, hmalware.read_eq, Option.bind_eq_bind,
    Option.bind_some]

end StoredFile

/-! ## Messages -/

theorem faithful_kind :
    Json.Faithful (fun k : MessageKind => Json.str k.word) MessageKind.ofJson? where
  sound k := Json.faithful_str.sound k.word
  read_write k := by
    have hword : Json.asWord? (Json.str k.word) = some k.word := Json.faithful_str.read_write k.word
    rw [MessageKind.ofJson?, hword]
    cases k <;> decide

theorem faithful_variables : Json.Faithful variablesToJson variablesOfJson? where
  sound t := by
    refine Json.sound_obj fun e he => ?_
    obtain ⟨v, -, rfl⟩ := List.mem_map.1 he
    exact Json.faithful_str.sound v.2
  read_write t := by
    have hentries : ((t.toList.map fun e => (e.1, Json.str e.2)).mapM fun f =>
        (Json.asString? f.2).map fun s => (f.1, s)) = some t.toList := by
      refine Json.mapM_map_eq_some (fun e => ?_) t.toList
      rw [Json.faithful_str.read_write e.2]
      rfl
    rw [variablesOfJson?, variablesToJson, Json.asFields?_obj]
    simp only [Option.bind_eq_bind, Option.bind_some, hentries, Table.ofList_toList]

namespace Message

/-- What is given for each field. -/
def fields (m : Message) : List (String × Option Json) :=
  [("id", some (Json.ofInt64 m.id)), ("type", some (Json.str m.kind.word)),
    ("text", unlessDefault "" Json.str m.text), ("file", m.file.map File.toJson),
    ("contact", m.contact.map Account.toJson),
    ("variables", unlessDefault Table.empty variablesToJson m.vars)]

theorem toJson_eq (m : Message) : m.toJson = Json.ofFields m.fields := by
  have hvars : (if m.vars.isEmpty then [] else [("variables", variablesToJson m.vars)]) =
      Json.piece ("variables", unlessDefault Table.empty variablesToJson m.vars) := by
    unfold unlessDefault
    by_cases h : m.vars = Table.empty
    · simp [Table.isEmpty_iff, h]
    · simp [Table.isEmpty_iff, h]
  have hfile : (m.file.map fun f => ("file", f.toJson)).toList =
      Json.piece ("file", m.file.map File.toJson) := by
    cases m.file <;> rfl
  have hcontact : (m.contact.map fun a => ("contact", a.toJson)).toList =
      Json.piece ("contact", m.contact.map Account.toJson) := by
    cases m.contact <;> rfl
  simp [toJson, Json.ofFields, fields, textField_eq, hvars, hfile, hcontact, Json.ofInt64]

theorem faithful : Json.Faithful toJson ofJson? := by
  refine .record fields (by decide) toJson_eq (fun _ => rfl) (fun _ => rfl) fun m => ?_
  have hid := Json.faithful_int64.optional 0 m.id
  have hkind := faithful_kind.required m.kind
  have htext := Json.faithful_str.unlessDefault "" m.text
  have hfile := File.faithful.nullable (fun f hf => by cases hf) m.file
  have hcontact := Account.faithful.nullable (fun a ha => by cases ha) m.contact
  have hvars := faithful_variables.unlessDefault Table.empty m.vars
  simp only [fields, List.forall_mem_cons, List.map_cons, List.map_nil]
  refine ⟨⟨hid.sound, hkind.sound, htext.sound, hfile.sound, hcontact.sound, hvars.sound, by simp⟩, ?_⟩
  simp only [hid.read_eq, hkind.read_eq, htext.read_eq, hfile.read_eq, hcontact.read_eq,
    hvars.read_eq, Option.bind_eq_bind, Option.bind_some]

end Message

namespace Update

/-- What is given for each field. -/
def fields (u : Update) : List (String × Option Json) :=
  [("id", some (Json.ofInt64 u.id)), ("chat", some u.chat.toJson), ("message", some u.message.toJson)]

theorem faithful : Json.Faithful toJson ofJson? := by
  refine .record fields (by decide) (fun _ => rfl) (fun _ => rfl) (fun _ => rfl) fun u => ?_
  have hid := Json.faithful_int64.optional 0 u.id
  have hchat := Channel.faithful.required u.chat
  have hmessage := Message.faithful.required u.message
  simp only [fields, List.forall_mem_cons, List.map_cons, List.map_nil]
  refine ⟨⟨hid.sound, hchat.sound, hmessage.sound, by simp⟩, ?_⟩
  simp only [hid.read_eq, hchat.read_eq, hmessage.read_eq, Option.bind_eq_bind, Option.bind_some]

end Update

/-! ## Broadcasts -/

namespace BroadcastRequest

/-- What is given for each field. -/
def fields (r : BroadcastRequest) : List (String × Option Json) :=
  [("peers", some (.array (r.peers.map Json.str))), ("text", some (Json.str r.text))]

theorem faithful : Json.Faithful toJson ofJson? := by
  refine .record fields (by decide) (fun _ => rfl) (fun _ => rfl) (fun _ => rfl) fun r => ?_
  have hpeers := Json.faithful_str.list.required r.peers
  have htext := Json.faithful_str.required r.text
  simp only [fields, List.forall_mem_cons, List.map_cons, List.map_nil]
  refine ⟨⟨hpeers.sound, htext.sound, by simp⟩, ?_⟩
  simp only [hpeers.read_eq, htext.read_eq, Option.bind_eq_bind, Option.bind_some]

end BroadcastRequest

namespace FailureReason

/-- What is given for each field. -/
def fields (r : FailureReason) : List (String × Option Json) :=
  [("code", some (Json.ofInt32 r.code)), ("message", some (Json.str r.message))]

theorem faithful : Json.Faithful toJson ofJson? := by
  refine .record fields (by decide) (fun _ => rfl) (fun _ => rfl) (fun _ => rfl) fun r => ?_
  have hcode := Json.faithful_int32.required r.code
  have hmessage := Json.faithful_str.required r.message
  simp only [fields, List.forall_mem_cons, List.map_cons, List.map_nil]
  refine ⟨⟨hcode.sound, hmessage.sound, by simp⟩, ?_⟩
  simp only [hcode.read_eq, hmessage.read_eq, Option.bind_eq_bind, Option.bind_some]

end FailureReason

namespace BroadcastFailure

/-- What is given for each field. -/
def fields (f : BroadcastFailure) : List (String × Option Json) :=
  [("peer", some (Json.str f.peer)), ("error", some f.error.toJson)]

theorem faithful : Json.Faithful toJson ofJson? := by
  refine .record fields (by decide) (fun _ => rfl) (fun _ => rfl) (fun _ => rfl) fun f => ?_
  have hpeer := Json.faithful_str.required f.peer
  have herror := FailureReason.faithful.required f.error
  simp only [fields, List.forall_mem_cons, List.map_cons, List.map_nil]
  refine ⟨⟨hpeer.sound, herror.sound, by simp⟩, ?_⟩
  simp only [hpeer.read_eq, herror.read_eq, Option.bind_eq_bind, Option.bind_some]

end BroadcastFailure

namespace BroadcastResponse

/-- What is given for the only field. -/
def fields (r : BroadcastResponse) : List (String × Option Json) :=
  [("failures",
    unlessDefault [] (fun fs => .array (fs.map BroadcastFailure.toJson)) r.failures)]

theorem toJson_eq (r : BroadcastResponse) : r.toJson = Json.ofFields r.fields := by
  unfold toJson Json.ofFields fields unlessDefault
  by_cases h : r.failures = []
  · simp [h]
  · simp [h]

theorem faithful : Json.Faithful toJson ofJson? := by
  refine .record fields (by decide) toJson_eq (fun _ => rfl) (fun _ => rfl) fun r => ?_
  have hfailures := BroadcastFailure.faithful.list.unlessDefault [] r.failures
  simp only [fields, List.forall_mem_cons, List.map_cons, List.map_nil]
  refine ⟨⟨hfailures.sound, by simp⟩, ?_⟩
  simp only [hfailures.read_eq, Option.bind_eq_bind, Option.bind_some]

end BroadcastResponse

/-! ## All of them -/

/-- Every envelope is read back from its text, with the variables of a message in any order. Of its
fields those with a zero id, an empty text, an absent part, no variables or no failures are left out,
where the reader has them as defaults. -/
theorem forms_lossless :
    Json.Lossless Account.toJson Account.ofJson? ∧
    Json.Lossless Channel.toJson Channel.ofJson? ∧
    Json.Lossless File.toJson File.ofJson? ∧
    Json.Lossless Message.toJson Message.ofJson? ∧
    Json.Lossless Update.toJson Update.ofJson? ∧
    Json.Lossless GatewayError.toJson GatewayError.ofJson? ∧
    Json.Lossless UploadHeader.toJson UploadHeader.ofJson? ∧
    Json.Lossless StoredFile.toJson StoredFile.ofJson? ∧
    Json.Lossless BroadcastRequest.toJson BroadcastRequest.ofJson? ∧
    Json.Lossless BroadcastFailure.toJson BroadcastFailure.ofJson? ∧
    Json.Lossless BroadcastResponse.toJson BroadcastResponse.ofJson? ∧
    Json.Lossless FailureReason.toJson FailureReason.ofJson? ∧
    (∀ a : Account, ("id" ∈ a.toJson.names ↔ a.id ≠ 0) ∧
      ("first_name" ∈ a.toJson.names ↔ a.firstName ≠ "") ∧
      ("last_name" ∈ a.toJson.names ↔ a.lastName ≠ "") ∧
      ("username" ∈ a.toJson.names ↔ a.username ≠ "")) ∧
    (∀ m : Message, ("text" ∈ m.toJson.names ↔ m.text ≠ "") ∧
      ("file" ∈ m.toJson.names ↔ m.file ≠ none) ∧
      ("contact" ∈ m.toJson.names ↔ m.contact ≠ none) ∧
      ("variables" ∈ m.toJson.names ↔ m.vars ≠ Table.empty)) ∧
    ∀ r : BroadcastResponse, "failures" ∈ r.toJson.names ↔ r.failures ≠ [] := by
  refine ⟨Account.faithful.lossless, Channel.faithful.lossless, File.faithful.lossless,
    Message.faithful.lossless, Update.faithful.lossless, GatewayError.faithful.lossless,
    UploadHeader.faithful.lossless, StoredFile.faithful.lossless, BroadcastRequest.faithful.lossless,
    BroadcastFailure.faithful.lossless, BroadcastResponse.faithful.lossless,
    FailureReason.faithful.lossless, fun a => ?_, fun m => ?_, fun r => ?_⟩
  · simp [Account.toJson_eq, Json.mem_names_ofFields, Account.fields]
  · simp [Message.toJson_eq, Json.mem_names_ofFields, Message.fields]
  · simp [BroadcastResponse.toJson_eq, Json.mem_names_ofFields, BroadcastResponse.fields]

end Envelope

end Telebridge
