import Telebridge.Media.FileName
set_option autoImplicit false

/-! # Media types

A media type without its parameters, in lower case, and the file name extensions that go with
media types, in both directions. `Mime.Associations` stands for the registry that knows them all. -/

namespace Telebridge.Mime

/-- Type and subtype of a media type, in lower case and without parameters. -/
def essence (value : String) : String :=
  (Text.trim (String.ofList (value.toList.takeWhile (· ≠ ';')))).map Char.toLower

/-- What stands before the slash. -/
def topLevel (mime : String) : String :=
  String.ofList (mime.toList.takeWhile (· ≠ '/'))

/-- Arbitrary bytes. -/
def octetStream : String := "application/octet-stream"

/-- Which file name extensions go with a media type, and which media types with an extension; the
preferred ones come first. -/
class Associations where
  extensions : String → List String
  types : String → List String

/-- The preferred extension of a media type. -/
def extension? [Associations] (mime : String) : Option String :=
  (Associations.extensions mime).head?

/-- The media type that a file's name suggests; arbitrary bytes if it suggests none. -/
def ofFileName [Associations] (name : String) : String :=
  match FileName.extension? name with
  | none => octetStream
  | some ext => (Associations.types ext).head?.getD octetStream

/-! ## Common associations -/

/-- The preferred extensions of common media types. -/
def commonExtensions : List (String × String) := [
  ("application/pdf", "pdf"), ("image/png", "png"), ("image/gif", "gif"), ("image/webp", "webp"),
  ("image/svg+xml", "svg"), ("image/jpeg", "jfif"), ("video/mp4", "mp4"), ("audio/mpeg", "m2a"),
  ("application/zip", "zip"), ("application/json", "json"), (octetStream, "aaf"),
  ("text/html", "htm"), ("text/css", "css"), ("text/csv", "csv"), ("text/plain", "asm")]

/-- The media types of common extensions. -/
def commonTypes : List (String × String) := [
  ("jpg", "image/jpeg"), ("jpeg", "image/jpeg"), ("png", "image/png"), ("gif", "image/gif"),
  ("webp", "image/webp"), ("svg", "image/svg+xml"), ("gz", "application/gzip"),
  ("zip", "application/zip"), ("pdf", "application/pdf"), ("mp4", "video/mp4"),
  ("mp3", "audio/mpeg"), ("txt", "text/plain"), ("html", "text/html"), ("htm", "text/html"),
  ("css", "text/css"), ("csv", "text/csv"), ("json", "application/json"), ("xml", "text/xml"),
  ("mov", "video/quicktime"), ("ogg", "audio/ogg"), ("wav", "audio/wav"), ("webm", "video/webm")]

/-- What a list of pairs gives for a name. -/
def associated (pairs : List (String × String)) (name : String) : List String :=
  (pairs.filter fun p => p.1 = name).map Prod.snd

instance : Associations where
  extensions := associated commonExtensions
  types ext := associated commonTypes (ext.map Char.toLower)

end Telebridge.Mime
