import Telebridge.Envelope.Message
import Telebridge.Gateway.Profile
import Telebridge.Media.FileName
import Telebridge.Schema.Request
import Telebridge.Url.Basic
set_option autoImplicit false

/-! # External actions

Everything an account asks of its surroundings: the server behind the connection, the bot profile and
the conversation service, the object storage, files on the web, and the sources of time and chance.
The index of `External` is the type of the answer. -/

namespace Telebridge

/-- Why a file could not be fetched from the web. -/
inductive FetchError where
  | unparsable
  | notWeb (url : Url)
  | unreachable (url : Url)
  | interrupted (url : Url)
deriving DecidableEq

/-- The text of the error. -/
def FetchError.message : FetchError → String
  | .unparsable => "builder error"
  | .notWeb url => "builder error for url (" ++ url.text ++ ")"
  | .unreachable url => "error sending request for url (" ++ url.text ++ ")"
  | .interrupted url => "error decoding response body for url (" ++ url.text ++ ")"

/-- The head of a fetched file, from the URL to which redirects have led. Header values that are not
plain text count as absent. `body` names the body for `External.nextChunk`. -/
structure WebResponse where
  url : Url
  status : Nat
  contentType : Option String
  contentDisposition : Option String
  length : Option Nat
  body : Nat
deriving DecidableEq, Inhabited

/-- The headers of a request to the control plane. -/
abbrev Headers := List (String × String)

/-- What the connection reports while it is driven. -/
inductive LinkEvent where
  | connected
  | unreported
  | ended (result : Except CallError Unit)
  | crashed

/-- An action that the surroundings carry out. -/
inductive External : Type → Type where
  /-- Sends a request over the account's connection. -/
  | call (request : Request) : External (Except CallError Reply)
  /-- Starts driving the account's connection. -/
  | connect : External Unit
  /-- Waits for the next report of the connection. -/
  | linkEvent : External LinkEvent
  /-- Reads a bot profile. -/
  | profile (id : ProfileId) : External Profile
  /-- Merges metadata into that of a bot profile. -/
  | setMetadata (id : ProfileId) (metadata : Metadata) : External (Except GatewayError Unit)
  /-- Finds or opens the conversation for a chat. -/
  | getChannel (id : ProfileId) (chatId : String) (contact : Envelope.Account) :
      External (Except GatewayError Envelope.Channel)
  /-- Hands an inbound message to the conversation service. -/
  | deliver (id : ProfileId) (update : Envelope.Update) : External (Except GatewayError Unit)
  /-- Checks that the headers carry administrator credentials. -/
  | authorize (id : ProfileId) (headers : Headers) : External (Except GatewayError Unit)
  /-- Opens an upload to the object storage. -/
  | openUpload (header : Envelope.UploadHeader) : External (Except GatewayError Nat)
  /-- Sends a frame of an upload; an empty one marks the end of the file. -/
  | sendFrame (upload : Nat) (bytes : ByteArray) : External (Except GatewayError Unit)
  /-- Closes an upload. -/
  | closeUpload (upload : Nat) : External (Except GatewayError Envelope.StoredFile)
  /-- Requests a file from the web. -/
  | fetch (url : Url) : External (Except FetchError WebResponse)
  /-- Waits for more of a fetched file; none at its end. -/
  | nextChunk (body : Nat) : External (Except FetchError (Option ByteArray))
  /-- Draws a random id. -/
  | randomId : External Int64
  /-- Draws random bytes. -/
  | randomBytes (count : Nat) : External ByteArray
  /-- Draws a random identifier in text form. -/
  | uuid : External String
  /-- Looks at the clock on the wall. -/
  | now : External FileName.Moment

end Telebridge
