import Telebridge.Encoding.Form
import Telebridge.Gateway.Error
import Telebridge.Json.Writer
import Telebridge.Program.External
set_option autoImplicit false

/-! # Requests and responses of the control plane

The parts of HTTP that the control plane uses: a request with its target taken apart, and the kinds of
response it gives. -/

namespace Telebridge.ControlPlane

/-- A request. -/
structure Request where
  method : String
  target : String
  headers : Headers
  body : ByteArray
deriving Inhabited

/-- A response; header fields that are not set are absent. -/
structure Response where
  status : Nat
  contentType : Option String := none
  cacheControl : Option String := none
  body : String := ""
deriving DecidableEq, Inhabited

/-! ## Targets -/

/-- A target without scheme and authority. -/
def originForm (target : List Char) : List Char :=
  if target.head? = some '/' then target
  else
    match target.dropWhile (· ≠ ':') with
    | ':' :: '/' :: '/' :: rest => rest.dropWhile fun c => c ≠ '/' ∧ c ≠ '?' ∧ c ≠ '#'
    | _ => target

/-- A target without its fragment. -/
def resource (target : String) : List Char :=
  (originForm target.toList).takeWhile (· ≠ '#')

/-- The path of a target. -/
def path (target : String) : String :=
  let p := (resource target).takeWhile (· ≠ '?')
  if p.isEmpty then "/" else String.ofList p

/-- The fields of a target's query. -/
def query (target : String) : List (String × String) :=
  let q := ((resource target).dropWhile (· ≠ '?')).drop 1
  Form.parse (Utf8.encode (String.ofList q)).data.toList

/-! ## Responses -/

/-- A JSON document that is not to be cached. -/
def Response.json (v : Json) : Response :=
  { status := 200
    contentType := some "application/json"
    cacheControl := some "no-cache"
    body := v.toText }

/-- A page. -/
def Response.page (html : String) : Response :=
  { status := 200, contentType := some "text/html; charset=utf-8", body := html }

/-- An error. -/
def Response.error (e : GatewayError) : Response :=
  { status := e.status.toNat, contentType := some "application/json", body := e.toJson.toText }

/-- There is nothing at the path. -/
def Response.nowhere : Response :=
  { status := 404 }

/-- The body is longer than the control plane takes. -/
def Response.tooLarge : Response :=
  { status := 413
    contentType := some "text/plain; charset=utf-8"
    body := "Failed to buffer the request body: length limit exceeded" }

/-- A result as a response. -/
def Response.ofResult : Except GatewayError Json → Response
  | .ok v => .json v
  | .error e => .error e

end Telebridge.ControlPlane
