import Telebridge.Call.Retry
import Telebridge.Crypto.Sha256
import Telebridge.Data.Table
import Telebridge.Encoding.Utf8
import Telebridge.Text.Blank
import Telebridge.Text.Quoted
set_option autoImplicit false

/-! # Account configuration

An account is configured by the metadata of its bot profile: an application id and hash, and
optionally a phone number. The hash and the id determine the application's identity; profiles with
one identity share one running session. -/

namespace Telebridge

/-- Opaque keys and values stored with a bot profile. -/
abbrev Metadata := Table String String

/-! ## Metadata keys -/

namespace MetadataKey

/-- The application id. -/
def apiId : String := "api_id"

/-- The application hash. -/
def apiHash : String := "api_hash"

/-- The phone number to log in with. -/
def phone : String := "phone"

/-- Whether calls are traced. -/
def debug : String := "debug"

/-- The stored protocol session. -/
def session : String := ".gotd"

/-- The stored logout tokens. -/
def auth : String := ".auth"

/-- The stored access hashes of users. -/
def peers : String := ".peers"

end MetadataKey

/-- Why metadata does not configure an account. -/
inductive ConfigError where
  | missing (key : String)
  | invalid (key value : String)
deriving DecidableEq, Inhabited

/-- The text of the error. -/
def ConfigError.message : ConfigError → String
  | .missing key => "metadata: " ++ key ++ " required but missing"
  | .invalid key value => "metadata: " ++ key ++ " invalid value " ++ Text.quote value

/-- The configuration of an account. -/
structure Config where
  apiId : Int32 := 0
  apiHash : String := ""
  phone : Option String := none
  debug : Bool := false
  retryPolicy : RetryPolicy := RetryPolicy.standard
  chunkSize : Nat := 524288
  dialogsPage : Int32 := 100
deriving DecidableEq, Inhabited

namespace Config

/-- `1`, `t` and `true` in the usual casings are true, anything else is false. -/
def readFlag (s : String) : Bool :=
  ["1", "t", "T", "true", "TRUE", "True"].contains (Text.trim s)

/-- A trimmed metadata value, empty when it is missing. -/
def trimmed (metadata : Metadata) (key : String) : String :=
  ((metadata.get? key).map Text.trim).getD ""

/-- The configuration that metadata gives. The id is a whole number other than zero and the hash is
not empty, after trimming. -/
def ofMetadata (metadata : Metadata) : Except ConfigError Config := do
  let id := trimmed metadata MetadataKey.apiId
  if id.isEmpty then throw (.missing MetadataKey.apiId)
  let apiId ← match Text.readInt32? id with
    | some n => if n = 0 then throw (.invalid MetadataKey.apiId id) else pure n
    | none => throw (.invalid MetadataKey.apiId id)
  let apiHash := trimmed metadata MetadataKey.apiHash
  if apiHash.isEmpty then throw (.missing MetadataKey.apiHash)
  let phone := trimmed metadata MetadataKey.phone
  return {
    apiId, apiHash
    phone := if phone.isEmpty then none else some phone
    debug := (metadata.get? MetadataKey.debug).any readFlag }

/-- The bytes whose digest is the identity: the hash, then the id as eight bytes. -/
def identityBytes (c : Config) : List UInt8 :=
  (Utf8.encode c.apiHash).data.toList ++ Octets.ofNat 8 (c.apiId.toInt % UInt64.size).toNat

/-- The identity of the application. -/
def identity (c : Config) : List UInt8 :=
  Sha256.hash c.identityBytes

/-- A description that does not show the hash. -/
def describe (c : Config) : String :=
  let phone := match c.phone with
    | none => "None"
    | some p => "Some(" ++ Text.quote p ++ ")"
  "Config \x7b api_id: " ++ Text.showInt32 c.apiId ++ ", api_hash: \"…\", phone: " ++ phone ++
    ", debug: " ++ (if c.debug then "true" else "false") ++
    ", chunk_size: " ++ Text.showNat c.chunkSize ++
    ", dialogs_page: " ++ Text.showInt32 c.dialogsPage ++ " \x7d"

/-- Bytes asked for or sent at a time; at least one. -/
def partSize (c : Config) : Nat :=
  max c.chunkSize 1

end Config

end Telebridge
