import Telebridge.Data.ByteArray
import Telebridge.Number.Binary64
set_option autoImplicit false

/-! # Media in messages and file transfer

Photos, documents and the other things a message can carry, where files are found, and how uploaded
files are named. -/

namespace Telebridge

/-! ## Media of a message -/

/-- A stored size of a photo or a thumbnail. Only `size` and `progressive` can be downloaded. -/
inductive PhotoSize where
  | empty (type : String)
  | size (type : String) (w h size : Int32)
  | cached (type : String) (w h : Int32) (bytes : ByteArray)
  | stripped (type : String) (bytes : ByteArray)
  | progressive (type : String) (w h : Int32) (sizes : List Int32)
  | path (type : String) (bytes : ByteArray)
deriving DecidableEq, Inhabited

/-- A photo. -/
structure Photo where
  id : Int64
  accessHash : Int64
  fileReference : ByteArray
  date : Int32
  sizes : List PhotoSize
  dcId : Int32
deriving DecidableEq, Inhabited

/-- A photo, or only its id. -/
inductive PhotoEntry where
  | empty (id : Int64)
  | photo (p : Photo)
deriving DecidableEq, Inhabited

/-- A point on the map. -/
structure GeoPoint where
  long : Binary64
  lat : Binary64
  accessHash : Int64
  accuracyRadius : Option Int32
deriving DecidableEq, Inhabited

/-- A sticker's picture and the text it stands for. -/
structure StickerAttribute where
  mask : Bool
  alt : String
deriving DecidableEq, Inhabited

/-- How a video plays. -/
structure VideoAttribute where
  roundMessage : Bool := false
  supportsStreaming : Bool := false
  duration : Binary64 := Binary64.zero false
  w : Int32 := 0
  h : Int32 := 0
deriving DecidableEq, Inhabited

/-- How a recording plays. -/
structure AudioAttribute where
  voice : Bool := false
  duration : Int32 := 0
  title : Option String := none
  performer : Option String := none
deriving DecidableEq, Inhabited

/-- What a document says about itself. -/
inductive DocumentAttribute where
  | imageSize (w h : Int32)
  | animated
  | sticker (s : StickerAttribute)
  | video (v : VideoAttribute)
  | audio (a : AudioAttribute)
  | filename (name : String)
deriving DecidableEq, Inhabited

/-- A file of any kind. -/
structure Document where
  id : Int64
  accessHash : Int64
  fileReference : ByteArray
  date : Int32
  mimeType : String
  size : Int64
  thumbs : Option (List PhotoSize)
  dcId : Int32
  attributes : List DocumentAttribute
deriving DecidableEq, Inhabited

/-- A document, or only its id. -/
inductive DocumentEntry where
  | empty (id : Int64)
  | document (d : Document)
deriving DecidableEq, Inhabited

/-- A contact card. -/
structure ContactCard where
  phoneNumber : String
  firstName : String
  lastName : String
  vcard : String
  userId : Int64
deriving DecidableEq, Inhabited

/-- What a message carries beside its text. -/
inductive MessageMedia where
  | empty
  | photo (photo : Option PhotoEntry) (ttlSeconds : Option Int32)
  | geo (point : Option GeoPoint)
  | contact (card : ContactCard)
  | unsupported
  | document (document : Option DocumentEntry) (ttlSeconds : Option Int32)
  | webPage
  | venue
  | game
  | invoice
  | geoLive
  | poll
  | dice
deriving DecidableEq, Inhabited

/-! ## File transfer -/

/-- Where a file is found: its id and reference, and which of its thumbnails. -/
structure FileAddress where
  id : Int64
  accessHash : Int64
  fileReference : ByteArray
  thumbSize : String
deriving DecidableEq, Inhabited

/-- The location of a photo or of a document. -/
inductive FileLocation where
  | photo (a : FileAddress)
  | document (a : FileAddress)
deriving DecidableEq, Inhabited

/-- The type tag of a stored file. -/
inductive FileType where
  | unknown
  | partialFile
  | jpeg
  | gif
  | png
  | pdf
  | mp3
  | mov
  | mp4
  | webp
deriving DecidableEq, Inhabited

/-- A file that was uploaded in parts; big files carry no checksum. -/
inductive InputFile where
  | small (id : Int64) (parts : Int32) (name md5Checksum : String)
  | big (id : Int64) (parts : Int32) (name : String)
deriving DecidableEq, Inhabited

/-- A document about to be sent. -/
structure UploadedDocument where
  nosoundVideo : Bool
  forceFile : Bool
  file : InputFile
  mimeType : String
  attributes : List DocumentAttribute
deriving DecidableEq, Inhabited

/-- Uploaded media about to be sent. -/
inductive InputMedia where
  | photo (spoiler : Bool) (file : InputFile) (ttlSeconds : Option Int32)
  | document (d : UploadedDocument)
deriving DecidableEq, Inhabited

end Telebridge
