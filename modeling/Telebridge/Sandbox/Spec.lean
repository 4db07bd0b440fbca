import Telebridge.Inbound.Handler
import Telebridge.Machine.Run
import Telebridge.Sandbox.Surroundings
set_option autoImplicit false

/-! # Descriptions of stand-ins

How stand-ins, errors and configurations are described in JSON. A field that is missing takes its
default; in a change it keeps its value. -/

namespace Telebridge.Sandbox

open JsonForm (bytes?)

/-! ## Errors -/

/-- Reads the failure of a call. -/
def callError? (v : Json) : Option CallError :=
  match v with
  | .text t =>
    match t.value? with
    | some "timeout" => some .timeout
    | some "cancelled" => some .cancelled
    | some "dropped" => some .dropped
    | _ => none
  | _ =>
    match v.field? "rpc" with
    | some (.array [code, message]) => do
      return .rpc (RpcError.parse (← Json.asInt32? code) (← Json.asString? message))
    | _ => (v.need "io" Json.asString?).map .io

/-- Reads a gateway error. -/
def gatewayError? (v : Json) : Option GatewayError := do
  return ⟨← v.getString "id", ← v.get "code" 0 Json.asUInt16?, ← v.getString "detail"⟩

/-- Reads a list of errors to come, with null for success. -/
def errors? (v : Json) : Option (List (Option GatewayError)) :=
  Json.asList? (Json.asNullable? gatewayError?) v

/-! ## Configurations -/

/-- Reads a natural number. -/
def natural? (v : Json) : Option Nat :=
  (Json.asInt64? v).map fun n => n.toInt.toNat

/-- Reads a retry policy. -/
def policy? (v : Json) : Option RetryPolicy :=
  match v with
  | .text t =>
    match t.value? with
    | some "none" => some .never
    | _ => some .standard
  | _ =>
    match v.present? "attempts" with
    | some n => (natural? n).map .attempts
    | none => do
      return .autoSleep (← v.get "threshold_ms" 60000 natural?) (← v.find "io_ms" natural?)
        (← v.get "max" 3 natural?)

/-- Reads a configuration. -/
def config? (v : Json) : Option Config := do
  return {
    apiId := ← v.get "api_id" 12345 Json.asInt32?
    apiHash := ← v.get "api_hash" "0123abcd" Json.asString?
    phone := ← v.find "phone" Json.asString?
    debug := ← v.getBool "debug"
    retryPolicy := ← v.get "policy" .standard policy?
    chunkSize := ← v.get "chunk_size" 524288 natural?
    dialogsPage := ← v.get "dialogs_page" 100 Json.asInt32? }

/-! ## Connections -/

/-- Reads the answer of a rule. -/
def answer? (v : Json) : Option Answer :=
  match v with
  | .text _ => some .hang
  | _ =>
    match v.field? "err", v.field? "serve" with
    | some e, _ => (callError? e).map .failure
    | none, some content => do
      return .serve (← bytes? content) (← v.need "type" FileType.ofJson?)
    | none, none => (Reply.ofJson? v).map .reply

/-- Reads a rule. -/
def rule? (v : Json) : Option Rule := do
  return {
    method := ← v.need "call" Json.asString?
    pattern := v.present? "when"
    answer := ← v.need "reply" answer?
    uses := ← v.find "times" natural?
    delay := ← v.get "delay" 0 natural? }

/-- Reads a script. -/
def script? (v : Json) : Option Script := Json.asList? rule? v

/-- Reads what happens when a connection is driven. -/
def linkMode? (v : Json) : Option LinkMode :=
  match v with
  | .text t =>
    match t.value? with
    | some "ok" => some (.connects 0)
    | some "exit" => some (.ends (.ok ()))
    | some "hang" => some .hangs
    | some "drop" => some .unreported
    | _ => none
  | _ =>
    match v.present? "err" with
    | some e => (callError? e).map fun e => .ends (.error e)
    | none => (v.need "delay" natural?).map .connects

/-! ## Profiles, storage, web -/

/-- Reads a map of texts. -/
def metadata? (v : Json) : Option Metadata := Envelope.variablesOfJson? v

/-- A profile as it is unless described otherwise. -/
def defaultProfile : ProfileStandIn :=
  { profile := { hostUrl := "https://chat.example.com" } }

/-- Changes a profile by a description. -/
def ProfileStandIn.change? (p : ProfileStandIn) (v : Json) : Option ProfileStandIn := do
  let disabled ← v.get "disabled" (!p.profile.enabled) Json.asBool?
  return {
    profile := {
      botId := ← v.get "bot_id" p.profile.botId Json.asInt64?
      domainId := ← v.get "domain_id" p.profile.domainId Json.asInt64?
      enabled := !disabled
      hostUrl := ← v.get "host_url" p.profile.hostUrl Json.asString?
      loginPage := ← v.get "login_page" p.profile.loginPage (Json.asNullable? Json.asString?)
      metadata := ← v.get "metadata" p.profile.metadata metadata? }
    contactId := ← v.get "contact_id" p.contactId Json.asInt64?
    newChat := ← v.get "new_chat" p.newChat Json.asBool?
    getChannelErrors := ← v.get "get_channel_errs" p.getChannelErrors errors?
    deliverErrors := ← v.get "read_errs" p.deliverErrors errors?
    setMetadataErrors := ← v.get "set_metadata_errs" p.setMetadataErrors errors? }

/-- Reads a profile. -/
def profile? (v : Json) : Option ProfileStandIn := defaultProfile.change? v

/-- Reads an object storage. -/
def storage? (v : Json) : Option Storage := do
  return {
    openErrors := ← v.get "open_errs" [] errors?
    sendErrors := ← v.get "send_errs" [] errors?
    closeErrors := ← v.get "close_errs" [] errors?
    id := ← v.get "id" 7 Json.asInt64?
    url := ← v.get "url" "/any/file/7/download" Json.asString?
    size := ← v.find "size" Json.asInt64?
    malware := ← v.getBool "malware" }

/-- Reads a header. -/
def header? (v : Json) : Option (String × String) :=
  match v with
  | .array [name, value] => do return (← Json.asString? name, ← Json.asString? value)
  | _ => none

/-- Reads a web host. -/
def host? (v : Json) : Option Host := do
  return {
    status := ← v.get "status" 200 natural?
    headers := ← v.getList "headers" header?
    body := ← JsonForm.getBytes v "body"
    chunk := ← v.find "chunk" natural?
    missing := ← v.get "missing" 0 natural?
    refuse := ← v.getBool "refuse" }

/-! ## The log -/

/-- Metadata as a log shows it: access hashes are shown decoded. -/
def metadataView (metadata : Metadata) : Json :=
  Json.obj <| metadata.toList.map fun (key, text) =>
    match Backup.toHashes text with
    | .ok users =>
      if key = MetadataKey.peers && !text.isEmpty then (key, Json.obj [("peers", hashesView users)])
      else (key, Json.str text)
    | .error _ => (key, Json.str text)
where
  /-- Access hashes by user id. -/
  hashesView (users : Table Int64 Int64) : Json :=
    Json.obj (users.toList.map fun e => (Text.showInt64 e.1, Json.int64 e.2))

/-- Writes what a profile was asked. -/
def ProfileEvent.toJson : ProfileEvent → Json
  | .getChannel chatId contact =>
    Json.obj [("get_channel",
      Json.obj [("chat_id", Json.str chatId), ("contact", contact.toJson)])]
  | .deliver update => Json.obj [("read", update.toJson)]
  | .setMetadata metadata => Json.obj [("set_metadata", metadataView metadata)]

/-- Writes what the storage was asked. -/
def StorageEvent.toJson : StorageEvent → Json
  | .opened header => Json.obj [("open", header.toJson)]
  | .frame data => Json.obj [("frame", JsonForm.bytes data)]
  | .closed => Json.str "close"

/-- Writes the configuration that a connection was asked for with. -/
def connectionView (c : Config) : Json :=
  Json.obj [("api_id", Json.int32 c.apiId), ("api_hash", Json.str c.apiHash),
    ("phone", Json.nullable Json.str c.phone), ("debug", .bool c.debug)]

/-- How machines with stand-ins are run. -/
def setup : Machine.Setup State :=
  ⟨surroundings, Inbound.handle⟩

end Telebridge.Sandbox
