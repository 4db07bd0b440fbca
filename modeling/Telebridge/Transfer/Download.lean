import Telebridge.Call.Pipeline
import Telebridge.Transfer.Error
import Telebridge.Url.Reader
set_option autoImplicit false

/-! # From the server to the storage

A file is asked for part by part, each part starting where the last one ended, and every part goes to
the storage before the next is asked for. A part shorter than asked for is the last; an empty frame
marks the end. The upload to the storage is opened with the first part, whose type may decide the
file's media type and name. Flood waits and timeouts are sat out. -/

namespace Telebridge.Download

/-- An open upload to the storage, and the file as it is described there. -/
structure Sink where
  upload : Nat
  file : Envelope.File
deriving DecidableEq, Inhabited

/-- A download on its way: how much has arrived, and where it goes. -/
structure State where
  offset : Int64 := 0
  sink : Option Sink := none
deriving DecidableEq, Inhabited

/-- One part of a file. -/
structure Part where
  type : FileType
  bytes : ByteArray

/-- Opens the upload for a file whose first part has the given type. -/
def openSink (file : Envelope.File) (type : FileType) : Program (Except TransferError Sink) := do
  let now ← Program.external .now
  let file := FileName.complete file type now
  let profile ← Program.currentProfile
  let uuid ← Program.external .uuid
  let header := { domainId := profile.domainId, mime := file.mime, name := file.name, uuid }
  match ← Program.external (.openUpload header) with
  | .ok upload => return .ok ⟨upload, file⟩
  | .error e => return .error (.storage e)

/-- The open upload, or a new one. -/
def sinkFor (s : State) (file : Envelope.File) (type : FileType) :
    Program (Except TransferError Sink) :=
  match s.sink with
  | some sink => return .ok sink
  | none => openSink file type

/-- The frames for a part: its bytes if there are any, and the end mark after the last part. -/
def frames (bytes : ByteArray) (last : Bool) : List ByteArray :=
  (if bytes.isEmpty then [] else [bytes]) ++ (if last then [ByteArray.empty] else [])

/-- Sends frames in order until one is refused. -/
def sendFrames (upload : Nat) : List ByteArray → Program (Except TransferError Unit)
  | [] => return .ok ()
  | frame :: rest => do
    match ← Program.external (.sendFrame upload frame) with
    | .ok () => sendFrames upload rest
    | .error e => return .error (.storage e)

/-- The next part from the server, or the wait that comes first. -/
def requestPart (location : FileLocation) (offset : Int64) (limit : Nat) :
    Program (Except TransferError (Option Part)) := do
  let reply : Except CallError FileReply ←
    Pipeline.call (.getFile { location, offset, limit := Int32.ofNat limit })
  match reply with
  | .ok (.part type _ bytes) => return .ok (some ⟨type, bytes⟩)
  | .ok (.cdnRedirect dcId _ _ _) => return .error (.cdnRedirect dcId)
  | .error e =>
    match e.backoff? with
    | none => return .error (.call e)
    | some ms =>
      match ← Program.pause ms with
      | .elapsed => return .ok none
      | .cancelled => return .error (.call .cancelled)

/-- Brings one part to the storage; ends with the upload after the last part. -/
def turn (file : Envelope.File) (location : FileLocation) (limit : Nat) (s : State) :
    Program (State ⊕ Except TransferError Sink) := do
  match ← requestPart location s.offset limit with
  | .error e => return .inr (.error e)
  | .ok none => return .inl s
  | .ok (some part) =>
    let last := part.bytes.size < limit
    match ← sinkFor s file part.type with
    | .error e => return .inr (.error e)
    | .ok sink =>
      match ← sendFrames sink.upload (frames part.bytes last) with
      | .error e => return .inr (.error e)
      | .ok () =>
        if last then return .inr (.ok sink)
        else return .inl ⟨s.offset + Int64.ofNat part.bytes.size, some sink⟩

/-- A storage address as others can reach it: a path is taken relative to the public URL of the
profile, if that is usable. -/
def publicUrl [Url.DomainMapping] (hostUrl url : String) : String :=
  if url.toList.head? = some '/' then
    match (Url.ofString? hostUrl).bind fun base => base.join? url with
    | some u => u.text
    | none => url
  else url

/-- Copies the file at a location into the storage. A name or media type that `file` already has is
kept where the type of the file does not decide it. -/
def toStorage [Url.DomainMapping] (file : Envelope.File) (location : FileLocation) :
    Program (Except TransferError Envelope.File) := do
  let limit ← Program.read fun a => a.config.partSize
  match ← Program.iterate {} (turn file location limit) with
  | .error e => return .error e
  | .ok sink =>
    match ← Program.external (.closeUpload sink.upload) with
    | .error e => return .error (.storage e)
    | .ok stored =>
      let profile ← Program.currentProfile
      return .ok { sink.file with
        id := stored.id
        url := publicUrl profile.hostUrl stored.url
        size := stored.size
        malware := stored.malware }

end Telebridge.Download
