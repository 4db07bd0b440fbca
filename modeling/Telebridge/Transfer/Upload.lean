import Telebridge.Call.Pipeline
import Telebridge.Media.Outgoing
import Telebridge.Media.PartBuffer
import Telebridge.Transfer.Error
import Telebridge.Url.Reader
set_option autoImplicit false

/-! # From the web to the server

A file is fetched from the web and sent on in parts while it arrives. Its name is the one it was
given, else the one the web server suggests, else the last segment of the URL it came from; a name
without an extension gets the one that goes with the announced media type. -/

namespace Telebridge.Upload

/-- The name a fetched file gets. -/
def fileName [Mime.Associations] (given : String) (url : Url) (contentType : String)
    (disposition : Option String) : String :=
  let name := if given.isEmpty then (disposition.bind FileName.ofDisposition?).getD "" else given
  let name := if name.isEmpty then url.basename else name
  if FileName.hasExtension name then name
  else
    match Mime.extension? contentType with
    | some ext => name ++ "." ++ ext
    | none => name

/-- The media type a fetched file gets: the one it was given, else the announced one, else the one its
name suggests. -/
def mimeType [Mime.Associations] (given contentType name : String) : String :=
  let mime := Mime.essence given
  if !mime.isEmpty then mime
  else if !contentType.isEmpty then contentType
  else Mime.ofFileName name

/-- The request that sends a part. -/
def partRequest (fileId : Int64) (p : FilePart) : Request :=
  match p.kind with
  | .small => .saveFilePart fileId p.index p.bytes
  | .big total => .saveBigFilePart fileId p.index total p.bytes

/-- Sends parts in order until one fails for good. -/
def sendParts (fileId : Int64) : List FilePart → Program (Except TransferError Unit)
  | [] => return .ok ()
  | part :: rest => do
    match ← Pipeline.callPersistently (partRequest fileId part) with
    | .ok _ => sendParts fileId rest
    | .error e => return .error (.call e)

/-- Requests a file. -/
def fetch [Url.DomainMapping] (url : String) : Program (Except TransferError WebResponse) := do
  match Url.ofString? url with
  | none => return .error (.web url .unparsable)
  | some u =>
    if u.isWeb then
      match ← Program.external (.fetch u) with
      | .ok response =>
        if 400 ≤ response.status then return .error (.status url response.status)
        else return .ok response
      | .error e => return .error (.web url e)
    else return .error (.web url (.notWeb u))

/-- Sends the next piece of the body on; ends with the buffer after the last piece. -/
def turn (url : String) (fileId : Int64) (body : Nat) (buffer : PartBuffer) :
    Program (PartBuffer ⊕ Except TransferError PartBuffer) := do
  match ← Program.unlessCancelled (Program.external (.nextChunk body)) with
  | none => return .inr (.error (.call .cancelled))
  | some (.error e) => return .inr (.error (.web url e))
  | some (.ok none) =>
    let (parts, buffer) := buffer.finish
    match ← sendParts fileId parts with
    | .ok () => return .inr (.ok buffer)
    | .error e => return .inr (.error e)
  | some (.ok (some data)) =>
    let (parts, buffer) := buffer.write data
    match ← sendParts fileId parts with
    | .ok () => return .inl buffer
    | .error e => return .inr (.error e)

/-- Fetches a file and sends it to the server. -/
def fromWeb [Url.DomainMapping] [Mime.Associations] (file : Envelope.File) :
    Program (Except TransferError UploadedMedia) := do
  match ← Program.unlessCancelled (fetch file.url) with
  | none => return .error (.call .cancelled)
  | some (.error e) => return .error e
  | some (.ok response) =>
    let contentType := (response.contentType.map Mime.essence).getD ""
    let name := fileName file.name response.url contentType response.contentDisposition
    let mime := mimeType file.mime contentType name
    let partSize ← Program.read fun a => a.config.partSize
    let fileId ← Program.external .randomId
    match ← Program.iterate (PartBuffer.start partSize response.length)
        (turn file.url fileId response.body) with
    | .error e => return .error e
    | .ok buffer => return .ok ⟨buffer.inputFile fileId name, name, mime, buffer.size⟩

end Telebridge.Upload
