import Telebridge.Account.LoginFlow
import Telebridge.Data.Table
import Telebridge.Encoding.Base64
import Telebridge.Encoding.Utf8
import Telebridge.Json.Reader
import Telebridge.Json.Writer
set_option autoImplicit false

/-! # Stored backups

The texts under which logout tokens and access hashes are stored with a bot profile: JSON in the
URL-safe letters of Base64, without padding. Nothing is stored for an empty list. Padding is
tolerated by the readers, and the empty text stands for the empty list. -/

namespace Telebridge.Backup

/-- Why a stored text cannot be read. -/
inductive Malformed where
  | base64
  | json
deriving DecidableEq, Inhabited

/-- The stored form of a JSON value. -/
def wrap (v : Json) : String :=
  String.ofList (Base64.encode Base64.urlSafe (Utf8.encode v.toText).data.toList)

/-- The JSON value of a stored text. -/
def unwrap (text : String) : Except Malformed Json := do
  let some bytes := Base64.decodeStripped? Base64.urlSafe text.toList | throw .base64
  let some v := Json.ofSymbols? (Utf8.scan bytes) | throw .json
  return v

/-! ## Logout tokens -/

/-- One token, in padded Base64. -/
def tokenText (token : ByteArray) : String :=
  String.ofList (Base64.encodePadded Base64.standard token.data.toList)

/-- Reads one token. -/
def token? (text : String) : Option ByteArray :=
  (Base64.decodePadded? Base64.standard text.toList).map fun bytes => ⟨bytes.toArray⟩

/-- The stored form of logout tokens. -/
def ofTokens (tokens : List ByteArray) : Option String :=
  if tokens.isEmpty then none
  else some (wrap (Json.obj [("tokens", .array (tokens.map fun t => Json.str (tokenText t)))]))

/-- Reads the record of token texts. -/
def tokenTexts? (v : Json) : Option (List String) := do
  match ← Json.record? ["tokens"] v with
  | [tokens] => Json.optional [] (Json.asList? Json.asString?) tokens
  | _ => none

/-- Reads logout tokens; no more than an account keeps. -/
def toTokens (text : String) : Except Malformed (List ByteArray) := do
  if text.isEmpty then return []
  let v ← unwrap text
  let some texts := tokenTexts? v | throw .json
  match (texts.take LoginFlow.maxTokens).mapM token? with
  | some tokens => return tokens
  | none => throw .base64

/-! ## Access hashes -/

/-- The stored form of access hashes by user id. -/
def ofHashes (users : List (Int64 × Int64)) : Option String :=
  if users.isEmpty then none
  else some (wrap (Json.obj (users.map fun e => (Text.showInt64 e.1, .integer e.2.toInt))))

/-- The id that a key writes: an integer in its plain form, without escapes. -/
def key? (t : Json.Text) : Option Int64 :=
  match Json.ofSymbols? t.raw with
  | some (.integer n) =>
    if t.raw = (Text.intDigits n).map some then Text.fitInt64? n else none
  | _ => none

/-- Reads one access hash. -/
def hash? (field : Json.Text × Json) : Option (Int64 × Int64) := do
  let id ← key? field.1
  let hash ← Json.asInt64? field.2
  return (id, hash)

/-- Reads access hashes; of two with one id the later counts. -/
def hashes? : Json → Option (Table Int64 Int64)
  | .object fields => (fields.mapM hash?).map Table.ofList
  | _ => none

/-- Reads access hashes by user id. -/
def toHashes (text : String) : Except Malformed (Table Int64 Int64) := do
  if text.isEmpty then return Table.empty
  let v ← unwrap text
  match hashes? v with
  | some users => return users
  | none => throw .json

end Telebridge.Backup
