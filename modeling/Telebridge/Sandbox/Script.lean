import Telebridge.Call.CallError
import Telebridge.JsonForm.Reply
set_option autoImplicit false

/-! # Scripts

A script stands in for the server: a list of rules of which the first that fits a request answers it.
A rule fits by the name of the remote procedure and by a pattern of the request's JSON form, and may
be used up. A request that no rule fits is rejected by name. -/

namespace Telebridge.Sandbox

/-- What a rule answers. -/
inductive Answer where
  | reply (r : Reply)
  | failure (e : CallError)
  /-- The part of a file that is asked for. -/
  | serve (content : ByteArray) (type : FileType)
  /-- Nothing, until the call is cancelled. -/
  | hang

/-- A rule of a script. `method` is the name of a remote procedure, or `*` for all of them. -/
structure Rule where
  method : String
  pattern : Option Json := none
  answer : Answer
  uses : Option Nat := none
  delay : Nat := 0

/-- A script. -/
abbrev Script := List Rule

/-- How deep patterns are compared. -/
def patternDepth : Nat := 100

/-- Whether a rule answers a request. -/
def Rule.fits (r : Rule) (request : Request) : Bool :=
  (r.method = "*" || r.method = request.method) && r.uses != some 0 &&
    r.pattern.all fun p => Json.isPart patternDepth p request.toJson

/-- A rule that was used once more. -/
def Rule.used (r : Rule) : Rule :=
  { r with uses := r.uses.map (· - 1) }

/-- The error for a request that no rule fits. -/
def notScripted (method : String) : CallError :=
  .rpc (RpcError.parse 400 ("NOT_SCRIPTED_" ++ method.map fun c => if c = '.' then '_' else c))

/-- The answer of a script to a request, its delay, and the script after it. -/
def select (request : Request) : Script → Answer × Nat × Script
  | [] => (.failure (notScripted request.method), 0, [])
  | r :: rest =>
    if r.fits request then (r.answer, r.delay, r.used :: rest)
    else
      let (answer, delay, rest) := select request rest
      (answer, delay, r :: rest)

/-- The part of a content from an offset on, no longer than a limit. -/
def slice (content : ByteArray) (offset : Int64) (limit : Int32) : ByteArray :=
  let first := offset.toInt.toNat
  content.extract first (first + limit.toInt.toNat)

/-- What comes back for a request; none if nothing does. -/
def Answer.outcome? (a : Answer) (request : Request) : Option (Except CallError Reply) :=
  match a with
  | .reply r => some (.ok r)
  | .failure e => some (.error e)
  | .serve content type =>
    match request with
    | .getFile q => some (.ok ⟨.file, .part type 0 (slice content q.offset q.limit)⟩)
    | _ => some (.error (notScripted request.method))
  | .hang => none

end Telebridge.Sandbox
