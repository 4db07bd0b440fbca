import Telebridge.Schema.Login
import Telebridge.Schema.Message
set_option autoImplicit false

/-! # Requests and replies

Every request the client can send and every reply it understands. `Request.method` is the name of the
remote procedure, `Request.expected` the kind of reply it promises. -/

namespace Telebridge

/-! ## Requests -/

/-- Which page of dialogs is wanted. -/
structure DialogQuery where
  excludePinned : Bool := false
  offsetDate : Int32 := 0
  offsetId : Int32 := 0
  offsetPeer : InputPeer := .empty
  limit : Int32 := 0
  hash : Int64 := 0
deriving DecidableEq, Inhabited

/-- A text about to be sent. -/
structure TextMessage where
  noWebpage : Bool := false
  silent : Bool := false
  peer : InputPeer
  message : String
  randomId : Int64
deriving DecidableEq, Inhabited

/-- Media about to be sent. -/
structure MediaMessage where
  silent : Bool := false
  peer : InputPeer
  media : InputMedia
  message : String
  randomId : Int64
deriving DecidableEq, Inhabited

/-- Which part of a file is wanted. -/
structure FileQuery where
  precise : Bool := false
  cdnSupported : Bool := false
  location : FileLocation
  offset : Int64 := 0
  limit : Int32
deriving DecidableEq, Inhabited

/-- A request to the server. -/
inductive Request where
  | sendCode (phoneNumber : String) (apiId : Int32) (apiHash : String) (settings : CodeSettings)
  | resendCode (phoneNumber phoneCodeHash : String)
  | cancelCode (phoneNumber phoneCodeHash : String)
  | signIn (phoneNumber phoneCodeHash : String) (phoneCode : Option String)
  | checkPassword (password : PasswordProof)
  | logOut
  | getPassword
  | getUsers (id : List InputUser)
  | getFullUser (id : InputUser)
  | getFullChannel (channel : InputChannel)
  | resolvePhone (phone : String)
  | resolveUsername (username : String)
  | getDialogs (query : DialogQuery)
  | getPeerDialogs (peers : List InputPeer)
  | getFullChat (chatId : Int64)
  | sendMessage (m : TextMessage)
  | sendMedia (m : MediaMessage)
  | readHistory (peer : InputPeer) (maxId : Int32)
  | getFile (query : FileQuery)
  | saveFilePart (fileId : Int64) (filePart : Int32) (bytes : ByteArray)
  | saveBigFilePart (fileId : Int64) (filePart fileTotalParts : Int32) (bytes : ByteArray)
  | getState
  | getDifference (pts date qts : Int32)
deriving DecidableEq, Inhabited

/-- The name of the remote procedure. -/
def Request.method : Request → String
  | .sendCode .. => "auth.sendCode"
  | .resendCode .. => "auth.resendCode"
  | .cancelCode .. => "auth.cancelCode"
  | .signIn .. => "auth.signIn"
  | .checkPassword .. => "auth.checkPassword"
  | .logOut => "auth.logOut"
  | .getPassword => "account.getPassword"
  | .getUsers .. => "users.getUsers"
  | .getFullUser .. => "users.getFullUser"
  | .getFullChannel .. => "channels.getFullChannel"
  | .resolvePhone .. => "contacts.resolvePhone"
  | .resolveUsername .. => "contacts.resolveUsername"
  | .getDialogs .. => "messages.getDialogs"
  | .getPeerDialogs .. => "messages.getPeerDialogs"
  | .getFullChat .. => "messages.getFullChat"
  | .sendMessage .. => "messages.sendMessage"
  | .sendMedia .. => "messages.sendMedia"
  | .readHistory .. => "messages.readHistory"
  | .getFile .. => "upload.getFile"
  | .saveFilePart .. => "upload.saveFilePart"
  | .saveBigFilePart .. => "upload.saveBigFilePart"
  | .getState => "updates.getState"
  | .getDifference .. => "updates.getDifference"

/-! ## Replies -/

/-- The full description of a user, with what it mentions. -/
structure UserFullReply where
  fullUser : UserFull
  chats : List ChatEntry
  users : List UserEntry
deriving DecidableEq, Inhabited

/-- The full description of a group or channel, with what it mentions. -/
structure ChatFullReply where
  fullChat : FullChat
  chats : List ChatEntry
  users : List UserEntry
deriving DecidableEq, Inhabited

/-- A resolved name or phone number, with what it mentions. -/
structure ResolvedPeer where
  peer : Peer
  chats : List ChatEntry
  users : List UserEntry
deriving DecidableEq, Inhabited

/-- A part of a file, or the news that the file is elsewhere. -/
inductive FileReply where
  | part (type : FileType) (mtime : Int32) (bytes : ByteArray)
  | cdnRedirect (dcId : Int32) (fileToken encryptionKey encryptionIv : ByteArray)
deriving DecidableEq, Inhabited

/-- The kinds of reply. -/
inductive ReplyKind where
  | bool
  | sentCode
  | authorization
  | loggedOut
  | password
  | users
  | userFull
  | chatFull
  | resolvedPeer
  | dialogs
  | peerDialogs
  | updates
  | affectedMessages
  | file
  | state
  | difference
deriving DecidableEq, Inhabited

/-- The name of a kind of reply. -/
def ReplyKind.name : ReplyKind → String
  | .bool => "Bool"
  | .sentCode => "SentCode"
  | .authorization => "Authorization"
  | .loggedOut => "LoggedOut"
  | .password => "Password"
  | .users => "Users"
  | .userFull => "UserFull"
  | .chatFull => "ChatFull"
  | .resolvedPeer => "ResolvedPeer"
  | .dialogs => "Dialogs"
  | .peerDialogs => "PeerDialogs"
  | .updates => "Updates"
  | .affectedMessages => "AffectedMessages"
  | .file => "File"
  | .state => "State"
  | .difference => "Difference"

/-- The value that a reply of each kind carries. -/
def ReplyKind.Value : ReplyKind → Type
  | .bool => Bool
  | .sentCode => SentCode
  | .authorization => AuthorizationReply
  | .loggedOut => Option ByteArray
  | .password => PasswordChallenge
  | .users => List UserEntry
  | .userFull => UserFullReply
  | .chatFull => ChatFullReply
  | .resolvedPeer => ResolvedPeer
  | .dialogs => DialogPage
  | .peerDialogs => DialogList
  | .updates => Updates
  | .affectedMessages => Int32 × Int32
  | .file => FileReply
  | .state => UpdatesState
  | .difference => Difference

/-- A reply of the server. -/
structure Reply where
  kind : ReplyKind
  value : kind.Value

/-- The value of a reply that has the given kind. -/
def Reply.value? (kind : ReplyKind) (r : Reply) : Option kind.Value :=
  if h : r.kind = kind then some (h ▸ r.value) else none

/-- The kind of reply that a request promises. -/
def Request.expected : Request → ReplyKind
  | .sendCode .. | .resendCode .. => .sentCode
  | .cancelCode .. | .saveFilePart .. | .saveBigFilePart .. => .bool
  | .signIn .. | .checkPassword .. => .authorization
  | .logOut => .loggedOut
  | .getPassword => .password
  | .getUsers .. => .users
  | .getFullUser .. => .userFull
  | .getFullChannel .. | .getFullChat .. => .chatFull
  | .resolvePhone .. | .resolveUsername .. => .resolvedPeer
  | .getDialogs .. => .dialogs
  | .getPeerDialogs .. => .peerDialogs
  | .sendMessage .. | .sendMedia .. => .updates
  | .readHistory .. => .affectedMessages
  | .getFile .. => .file
  | .getState => .state
  | .getDifference .. => .difference

end Telebridge
