import Telebridge.Envelope.File
import Telebridge.Text.Blank
import Telebridge.Schema.Media
set_option autoImplicit false

/-! # File names

Which part of a path is the file name and what its extension is, the name that a
`Content-Disposition` header gives, and the names made up for files that come without one. -/

namespace Telebridge.FileName

/-! ## Paths -/

/-- Splits a text at every character that satisfies `sep`; there is always at least one part. -/
def splitAll (sep : Char → Bool) : List Char → List (List Char)
  | [] => [[]]
  | c :: rest =>
    if sep c then [] :: splitAll sep rest
    else match splitAll sep rest with
      | part :: parts => (c :: part) :: parts
      | [] => [[c]]

/-- The last component of a path. Empty components and single dots do not count, and a path that
ends in two dots names no file. -/
def component? (path : List Char) : Option (List Char) := do
  let parts := (splitAll (· = '/') path).filter fun part => part ≠ [] ∧ part ≠ ['.']
  let last ← parts.getLast?
  if last = ['.', '.'] then none else some last

/-- What follows the last dot of a file name, which may be nothing. A dot in front does not count. -/
def extension? (path : String) : Option String := do
  let name ← component? path.toList
  let reversed := name.reverse
  match reversed.dropWhile (· ≠ '.') with
  | '.' :: _ :: _ => some (String.ofList (reversed.takeWhile (· ≠ '.')).reverse)
  | _ => none

/-- Whether a path names a file with an extension. -/
def hasExtension (path : String) : Bool :=
  (extension? path).isSome

/-! ## Content disposition -/

/-- Splits a parameter at its first equals sign. -/
def splitParameter? (p : List Char) : Option (List Char × List Char) :=
  match p.dropWhile (· ≠ '=') with
  | '=' :: value => some (p.takeWhile (· ≠ '='), value)
  | _ => none

/-- What follows the last slash or backslash. -/
def basename (name : List Char) : List Char :=
  (name.reverse.takeWhile fun c => c ≠ '/' ∧ c ≠ '\\').reverse

/-- A name that is not empty and does not stand for a directory. -/
def proper? (name : List Char) : Option (List Char) :=
  if name = [] ∨ name = ['.'] ∨ name = ['.', '.'] then none else some name

/-- The value of the first parameter named `filename`, without blanks and quotes around it. -/
def dispositionValue? (header : List Char) : Option (List Char) :=
  let parameters := (splitAll (· = ';') header).tail.filterMap fun p =>
    splitParameter? (Text.dropEnds Text.isBlank p)
  (parameters.find? fun p =>
    (Text.dropEnds Text.isBlank p.1).map Char.toLower = "filename".toList).map fun p =>
      Text.dropEnds (· = '"') (Text.dropEnds Text.isBlank p.2)

/-- The file name in a `Content-Disposition` header, without directories. -/
def ofDisposition? (header : String) : Option String := do
  let value ← dispositionValue? header.toList
  (proper? (basename value)).map String.ofList

/-! ## Names for nameless files -/

/-- A moment of the local calendar. -/
structure Moment where
  year : Nat
  month : Nat
  day : Nat
  hour : Nat
  minute : Nat
  second : Nat
deriving DecidableEq, Inhabited

/-- A number with leading zeros. -/
def padded (width n : Nat) : String :=
  let digits := Text.natDigits n
  String.ofList (List.replicate (width - digits.length) '0' ++ digits)

/-- A moment as part of a file name. -/
def Moment.stamp (m : Moment) : String :=
  "_" ++ padded 4 m.year ++ "-" ++ padded 2 m.month ++ "-" ++ padded 2 m.day ++
    "_" ++ padded 2 m.hour ++ "-" ++ padded 2 m.minute ++ "-" ++ padded 2 m.second

/-- What a stored file's type says about it: its media type, and how its name begins and ends. -/
structure Habit where
  mime : Option String
  stem : String
  extension : String

/-- What is customary for a type of file. -/
def habit : FileType → Habit
  | .jpeg => ⟨some "image/jpeg", "image", "jpg"⟩
  | .gif => ⟨some "image/gif", "image", "gif"⟩
  | .png => ⟨some "image/png", "image", "png"⟩
  | .pdf => ⟨some "application/pdf", "doc", "pdf"⟩
  | .mp3 => ⟨some "audio/mpeg", "audio", "mp3"⟩
  | .mov => ⟨some "video/quicktime", "video", "mov"⟩
  | .mp4 => ⟨some "video/mp4", "video", "mp4"⟩
  | .webp => ⟨some "image/webp", "image", "webp"⟩
  | .unknown | .partialFile => ⟨none, "file", "bin"⟩

/-- Completes a file by its type: a type that decides the media type overrides it, and a file
without a name is named after the moment. -/
def complete (file : Envelope.File) (type : FileType) (now : Moment) : Envelope.File :=
  let h := habit type
  { file with
    mime := match h.mime with
      | some mime => mime
      | none => if file.mime.isEmpty then "application/octet-stream" else file.mime
    name := if file.name.isEmpty then h.stem ++ now.stamp ++ "." ++ h.extension else file.name }

end Telebridge.FileName
