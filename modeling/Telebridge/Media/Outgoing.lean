import Telebridge.Media.Mime
set_option autoImplicit false

/-! # Uploaded media

A file that was uploaded, and what it is sent as: GIFs as animations, other images as photos, sound
and video as such, and everything else as a plain document. -/

namespace Telebridge

/-- An uploaded file, ready to be attached to a message. -/
structure UploadedMedia where
  file : InputFile
  name : String
  mime : String
  size : Nat
deriving DecidableEq, Inhabited

namespace UploadedMedia

/-- The file as a document. -/
def document (m : UploadedMedia) (forceFile : Bool) (attributes : List DocumentAttribute) :
    InputMedia :=
  .document {
    nosoundVideo := false, forceFile, file := m.file, mimeType := m.mime
    attributes := attributes ++ [.filename m.name] }

/-- What the file is sent as. -/
def inputMedia (m : UploadedMedia) : InputMedia :=
  let mime := Mime.essence m.mime
  if mime = "image/gif" then m.document false [.animated]
  else
    match Mime.topLevel mime with
    | "image" => .photo false m.file none
    | "audio" => m.document false [.audio {}]
    | "video" => m.document false [.video { supportsStreaming := true }]
    | _ => m.document true []

end UploadedMedia

end Telebridge
