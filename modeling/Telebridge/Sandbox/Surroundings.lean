import Telebridge.JsonForm.Field
import Telebridge.Machine.Basic
import Telebridge.Sandbox.State
set_option autoImplicit false

/-! # Stand-ins at work

How the stand-ins carry out what accounts ask of their surroundings. Everything but a scripted delay
and a connection's life is done at once. -/

namespace Telebridge.Sandbox

/-- Something that is done at once. -/
def finished {β : Type} (r : β × State) : Pending State β × State :=
  ({ finish? := fun s _ _ => some (r.1, s) }, r.2)

/-! ## Connections -/

/-- Sends a request over an account's connection. -/
def call (request : Request) (account now : Nat) (s : State) :
    Pending State (Except CallError Reply) × State :=
  let s := s.logCall request
  let c := s.connection account
  let (answer, delay, script) := select request c.script
  let pending : Pending State (Except CallError Reply) := {
    wakeAt := if delay = 0 then none else some (now + delay)
    finish? := fun s at' cancelled =>
      if at' < now + delay then none
      else
        match answer.outcome? request with
        | some outcome => some (outcome, s)
        | none => if cancelled then some (.error .cancelled, s) else none }
  (pending, s.setConnection account { c with script })

/-- Starts driving an account's connection. -/
def connect (account now : Nat) (s : State) : State :=
  let c := s.connection account
  s.setConnection account { c with active := some { mode := c.mode, since := now } }

/-- The next report of a driven connection, if there is one. -/
def report? (link : ActiveLink) (now : Nat) (cancelled : Bool) : Option LinkEvent :=
  let ended := if cancelled then some (LinkEvent.ended (.ok ())) else none
  match link.exit with
  | some result => some (.ended result)
  | none =>
    match link.mode with
    | .ends result => some (.ended result)
    | .hangs => ended
    | .unreported => if link.reported then ended else some .unreported
    | .connects after =>
      if link.reported then ended
      else if link.since + after ≤ now then some .connected
      else ended

/-- A connection after a report. -/
def Connection.after (c : Connection) (link : ActiveLink) : LinkEvent → Connection
  | .connected => { c with active := some { link with reported := true }, wasUp := true }
  | .unreported => { c with active := some { link with reported := true } }
  | .ended _ | .crashed => { c with active := none }

/-- Waits for the next report of an account's connection. -/
def linkEvent (account : Nat) (s : State) : Pending State LinkEvent :=
  { wakeAt := do
      let link ← (s.connection account).active
      match link.mode with
      | .connects after => if link.reported then none else some (link.since + after)
      | _ => none
    finish? := fun s now cancelled => do
      let c := s.connection account
      let link ← c.active
      let event ← report? link now cancelled
      return (event, s.setConnection account (c.after link event)) }

/-- Makes an account's driven connection end. -/
def endLink (s : State) (account : Nat) (result : Except CallError Unit) : State :=
  let c := s.connection account
  s.setConnection account
    { c with active := c.active.map fun link => { link with exit := some result } }

/-! ## Profiles -/

/-- Merges metadata into a profile's. -/
def setMetadata (id : ProfileId) (metadata : Metadata) (s : State) :
    Except GatewayError Unit × State :=
  let s := s.logProfile (.setMetadata metadata)
  let p := s.profile id
  let (outcome, setMetadataErrors) := State.nextError p.setMetadataErrors
  let p := { p with setMetadataErrors }
  match outcome with
  | .error e => (.error e, s.setProfile id p)
  | .ok () =>
    let profile := { p.profile with metadata := p.profile.metadata.insertAll metadata.toList }
    (.ok (), s.setProfile id { p with profile })

/-- Opens the conversation for a chat. -/
def getChannel (id : ProfileId) (chatId : String) (contact : Envelope.Account) (s : State) :
    Except GatewayError Envelope.Channel × State :=
  let s := s.logProfile (.getChannel chatId contact)
  let p := s.profile id
  let (outcome, getChannelErrors) := State.nextError p.getChannelErrors
  let s := s.setProfile id { p with getChannelErrors }
  match outcome with
  | .error e => (.error e, s)
  | .ok () =>
    (.ok { id := 1, chatId, contact := { contact with id := p.contactId }, isNew := p.newChat }, s)

/-- Takes an inbound message. -/
def deliver (id : ProfileId) (update : Envelope.Update) (s : State) :
    Except GatewayError Unit × State :=
  let s := s.logProfile (.deliver update)
  let p := s.profile id
  let (outcome, deliverErrors) := State.nextError p.deliverErrors
  (outcome, s.setProfile id { p with deliverErrors })

/-- The header that tells administrators. -/
def adminHeader : String := "x-admin"

/-- Checks that the headers are an administrator's. -/
def authorize (headers : Headers) : Except GatewayError Unit :=
  match (headers.find? fun h => h.1 = adminHeader).map Prod.snd with
  | some "ok" => .ok ()
  | some "forbidden" => .error (.forbidden "app.context.forbidden" "not an administrator")
  | _ => .error (.unauthorized "app.context.unauthorized" "admin credentials required")

/-! ## Storage -/

/-- Opens an upload. -/
def openUpload (header : Envelope.UploadHeader) (s : State) : Except GatewayError Nat × State :=
  let s := s.logStorage (.opened header)
  let (outcome, openErrors) := State.nextError s.storage.openErrors
  let s := { s with storage := { s.storage with openErrors } }
  match outcome with
  | .error e => (.error e, s)
  | .ok () => (.ok s.uploads.size, { s with uploads := s.uploads.push 0 })

/-- Takes a frame of an upload. -/
def sendFrame (upload : Nat) (bytes : ByteArray) (s : State) : Except GatewayError Unit × State :=
  let s := s.logStorage (.frame bytes)
  let (outcome, sendErrors) := State.nextError s.storage.sendErrors
  (outcome, { s with
    storage := { s.storage with sendErrors }
    uploads := s.uploads.modify upload (· + bytes.size) })

/-- Closes an upload. -/
def closeUpload (upload : Nat) (s : State) : Except GatewayError Envelope.StoredFile × State :=
  let s := s.logStorage .closed
  let (outcome, closeErrors) := State.nextError s.storage.closeErrors
  let s := { s with storage := { s.storage with closeErrors } }
  match outcome with
  | .error e => (.error e, s)
  | .ok () =>
    let size := s.storage.size.getD (Int64.ofNat (s.uploads[upload]?.getD 0))
    (.ok { id := s.storage.id, url := s.storage.url, size, malware := s.storage.malware }, s)

/-! ## The web -/

/-- The blanks around a header value, which do not belong to it. -/
def isHeaderBlank (c : Char) : Bool :=
  c = ' ' || c = '\t'

/-- The value of the first header with a name, if it is plain text. -/
def Host.header? (h : Host) (name : String) : Option String := do
  let (_, value) ← h.headers.find? fun e => e.1.map Char.toLower = name
  let value := Text.dropEnds isHeaderBlank value.toList
  if value.all fun c => c = '\t' || (' ' ≤ c && c ≤ '~') then some (String.ofList value) else none

/-- Whether a status comes without a body. -/
def isBodiless (status : Nat) : Bool :=
  status = 204 || status = 304

/-- The chunks of a body. -/
def Host.pieces (h : Host) : List ByteArray :=
  match h.chunk with
  | some n =>
    let (pieces, rest) := PartBuffer.cut n h.body
    pieces ++ [rest]
  | none => [h.body]

/-- Requests the file of a host. -/
def Host.fetch (h : Host) (url : Url) (body : Nat) : WebResponse × Body :=
  let bare := isBodiless h.status
  ({ url
     status := h.status
     contentType := h.header? "content-type"
     contentDisposition := h.header? "content-disposition"
     length :=
       if bare then some 0 else if h.chunk.isSome then none else some (h.body.size + h.missing)
     body },
   { url
     pieces := if bare then [] else h.pieces.filter fun piece => !piece.isEmpty
     broken := !bare && h.missing != 0 })

/-- Requests a file from the web. -/
def fetch (url : Url) (s : State) : Except FetchError WebResponse × State :=
  match s.host with
  | none => (.error (.unreachable url), s)
  | some h =>
    if h.refuse || url.scheme != "http" then (.error (.unreachable url), s)
    else
      let (response, body) := h.fetch url s.bodies.size
      (.ok response, { s with bodies := s.bodies.push body })

/-- Gives more of a body. -/
def nextChunk (body : Nat) (s : State) : Except FetchError (Option ByteArray) × State :=
  match s.bodies[body]? with
  | none => (.ok none, s)
  | some b =>
    match b.pieces with
    | piece :: pieces => (.ok (some piece), { s with bodies := s.bodies.setIfInBounds body { b with pieces } })
    | [] => (if b.broken then .error (.interrupted b.url) else .ok none, s)

/-! ## Chance and time -/

/-- Counts a random draw; gives its number. -/
def draw (s : State) : Nat × State :=
  (s.drawn, { s with drawn := s.drawn + 1 })

/-- A random id; no two are alike. -/
def randomId (s : State) : Int64 × State :=
  let (n, s) := draw s
  (Int64.ofNat (0x5a5a000000000001 + n), s)

/-- A random identifier in text form; no two are alike. -/
def uuid (s : State) : String × State :=
  let (n, s) := draw s
  ("00000000-0000-4000-8000-" ++ FileName.padded 12 n, s)

/-- The moment at which everything happens. -/
def moment : FileName.Moment :=
  ⟨2024, 1, 1, 0, 0, 0⟩

/-! ## All actions -/

/-- How the stand-ins begin an action. -/
def begin {β : Type} (e : External β) (account now : Nat) (s : State) :
    Pending State β × State :=
  match e with
  | .call request => call request account now s
  | .connect => finished ((), connect account now s)
  | .linkEvent => (linkEvent account s, s)
  | .profile id => finished ((s.profile id).profile, s)
  | .setMetadata id metadata => finished (setMetadata id metadata s)
  | .getChannel id chatId contact => finished (getChannel id chatId contact s)
  | .deliver id update => finished (deliver id update s)
  | .authorize _ headers => finished (authorize headers, s)
  | .openUpload header => finished (openUpload header s)
  | .sendFrame upload bytes => finished (sendFrame upload bytes s)
  | .closeUpload upload => finished (closeUpload upload s)
  | .fetch url => finished (fetch url s)
  | .nextChunk body => finished (nextChunk body s)
  | .randomId => finished (randomId s)
  | .randomBytes count => finished (JsonForm.generate count fun k => UInt8.ofNat (k + 1), s)
  | .uuid => finished (uuid s)
  | .now => finished (moment, s)

/-- The stand-ins as surroundings. -/
def surroundings : Surroundings State where
  enroll := fun config s => s.addConnection config
  begin := begin

end Telebridge.Sandbox
