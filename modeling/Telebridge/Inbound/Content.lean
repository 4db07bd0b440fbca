import Telebridge.Envelope.Message
import Telebridge.Number.Fixed
import Telebridge.Schema.Message
set_option autoImplicit false

/-! # What a message brings

A message is delivered as a text, a contact card, or a file that has to be fetched first. Photos and
documents that are gone, empty places and the other kinds of media bring nothing. -/

namespace Telebridge.Inbound

/-- A file to be fetched, and the caption that goes with it. -/
structure FileContent where
  file : Envelope.File
  location : FileLocation
  caption : String
deriving DecidableEq, Inhabited

/-- What a message brings. -/
inductive Content where
  | nothing
  | message (m : Envelope.Message)
  | file (f : FileContent)
deriving DecidableEq, Inhabited

/-! ## Pictures -/

/-- The type of a size that can be downloaded, and its length where it is known. -/
def downloadable? : PhotoSize → Option (String × Option Int64)
  | .size type _ _ size => some (type, some size.toInt64)
  | .progressive type _ _ _ => some (type, none)
  | .empty _ | .cached _ _ _ _ | .stripped _ _ | .path _ _ => none

/-- The largest size that can be downloaded; sizes are listed from small to large. -/
def largestSize? (sizes : List PhotoSize) : Option (String × Option Int64) :=
  sizes.reverse.findSome? downloadable?

/-- What a photo brings. -/
def ofPhoto (p : Photo) (caption : String) : Content :=
  match largestSize? p.sizes with
  | none => .nothing
  | some (type, size) =>
    .file {
      file := { size := size.getD 0 }
      location := .photo ⟨p.id, p.accessHash, p.fileReference, type⟩
      caption }

/-! ## Documents -/

/-- What is known of a document while its attributes are read. -/
structure Draft where
  file : Envelope.File
  thumbSize : String := ""
  text : String := ""
deriving DecidableEq, Inhabited

/-- A sticker is fetched as its largest picture and stands for a text; other documents take their
first file name. `stickerName` is the name for a sticker's picture. -/
def Draft.add (thumbs : Option (List PhotoSize)) (stickerName : String) (d : Draft) :
    DocumentAttribute → Draft
  | .sticker s =>
    let file := { d.file with mime := "image/webp", name := stickerName }
    match thumbs.bind largestSize? with
    | some (type, some size) => ⟨{ file with size }, type, s.alt⟩
    | some (type, none) => ⟨file, type, s.alt⟩
    | none => ⟨file, d.thumbSize, s.alt⟩
  | .filename name =>
    if d.file.name.isEmpty then { d with file := { d.file with name } } else d
  | .imageSize _ _ | .animated | .video _ | .audio _ => d

/-- Whether an attribute makes a document a sticker. -/
def isSticker : DocumentAttribute → Bool
  | .sticker _ => true
  | _ => false

/-- What a document brings. -/
def ofDocument (d : Document) (stickerName caption : String) : Content :=
  let draft := d.attributes.foldl (Draft.add d.thumbs stickerName)
    { file := { mime := d.mimeType, size := d.size } }
  .file {
    file := draft.file
    location := .document ⟨d.id, d.accessHash, d.fileReference, draft.thumbSize⟩
    caption := if draft.text.isEmpty then caption else draft.text }

/-! ## Places and people -/

/-- The link to a place on the map. -/
def ofPlace (p : GeoPoint) : Content :=
  .message (Envelope.Message.ofText
    ("https://www.google.com/maps/place/" ++ p.lat.fixed 6 ++ "," ++ p.long.fixed 6))

/-- A contact card. The sender's own card carries the sender's account. -/
def ofContact (card : ContactCard) (senderId : Int64) (channel : Envelope.Channel) : Content :=
  let name := Text.trim (card.firstName ++ " " ++ card.lastName)
  let name := if name.isEmpty then name else "<" ++ name ++ ">"
  .message {
    kind := .contact
    text := Text.trim (name ++ " " ++ card.phoneNumber)
    contact := some {
      id := if card.userId ≠ 0 ∧ card.userId = senderId then channel.contact.id else 0
      channel := "phone"
      contact := card.phoneNumber
      firstName := card.firstName
      lastName := card.lastName } }

/-! ## Messages -/

/-- What a message brings that came from a sender over a channel. `stickerName` is the name for the
picture of a sticker. -/
def content (m : Message) (senderId : Int64) (channel : Envelope.Channel) (stickerName : String) :
    Content :=
  match m.media with
  | none => .message (Envelope.Message.ofText m.message)
  | some media =>
    match media with
    | .photo (some (.photo p)) _ => ofPhoto p m.message
    | .geo (some p) => ofPlace p
    | .contact card => ofContact card senderId channel
    | .document (some (.document d)) _ => ofDocument d stickerName m.message
    | .photo _ _ | .geo none | .document _ _ | .empty | .unsupported | .webPage | .venue | .game
    | .invoice | .geoLive | .poll | .dice => .nothing

/-- Whether a message is a sticker. -/
def isStickerMessage (m : Message) : Bool :=
  match m.media with
  | some (.document (some (.document d)) _) => d.attributes.any isSticker
  | _ => false

end Telebridge.Inbound
