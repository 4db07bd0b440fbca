import Telebridge.Json.Record
set_option autoImplicit false

/-! # Broadcast requests and reports

A text for many peers, and the report on the peers that did not get it, with their JSON forms. -/

namespace Telebridge.Envelope

/-- A text for many peers, each a phone number or a username. -/
structure BroadcastRequest where
  peers : List String := []
  text : String := ""
deriving DecidableEq, Inhabited

namespace BroadcastRequest

/-- The JSON form. -/
def toJson (r : BroadcastRequest) : Json :=
  Json.obj [("peers", .array (r.peers.map Json.str)), ("text", Json.str r.text)]

/-- Reads the JSON form. -/
def ofJson? (v : Json) : Option BroadcastRequest := do
  match ← Json.record? ["peers", "text"] v with
  | [peers, text] =>
    some {
      peers := ← Json.required (Json.asList? Json.asString?) peers
      text := ← Json.required Json.asString? text }
  | _ => none

end BroadcastRequest

/-- Why a peer did not get a broadcast. -/
structure FailureReason where
  code : Int32
  message : String
deriving DecidableEq, Inhabited

namespace FailureReason

/-- The JSON form. -/
def toJson (r : FailureReason) : Json :=
  Json.obj [("code", .integer r.code.toInt), ("message", Json.str r.message)]

/-- Reads the JSON form. -/
def ofJson? (v : Json) : Option FailureReason := do
  match ← Json.record? ["code", "message"] v with
  | [code, message] =>
    some ⟨← Json.required Json.asInt32? code, ← Json.required Json.asString? message⟩
  | _ => none

end FailureReason

/-- A peer that did not get a broadcast, as it was given. -/
structure BroadcastFailure where
  peer : String
  error : FailureReason
deriving DecidableEq, Inhabited

namespace BroadcastFailure

/-- The JSON form. -/
def toJson (f : BroadcastFailure) : Json :=
  Json.obj [("peer", Json.str f.peer), ("error", f.error.toJson)]

/-- Reads the JSON form. -/
def ofJson? (v : Json) : Option BroadcastFailure := do
  match ← Json.record? ["peer", "error"] v with
  | [peer, error] =>
    some ⟨← Json.required Json.asString? peer, ← Json.required FailureReason.ofJson? error⟩
  | _ => none

end BroadcastFailure

/-- What a broadcast reports: the peers that did not get it. -/
structure BroadcastResponse where
  failures : List BroadcastFailure := []
deriving DecidableEq, Inhabited

namespace BroadcastResponse

/-- The JSON form. -/
def toJson (r : BroadcastResponse) : Json :=
  Json.obj <|
    if r.failures.isEmpty then []
    else [("failures", .array (r.failures.map BroadcastFailure.toJson))]

/-- Reads the JSON form. -/
def ofJson? (v : Json) : Option BroadcastResponse := do
  match ← Json.record? ["failures"] v with
  | [failures] =>
    some { failures := ← Json.optional [] (Json.asList? BroadcastFailure.ofJson?) failures }
  | _ => none

end BroadcastResponse

end Telebridge.Envelope
