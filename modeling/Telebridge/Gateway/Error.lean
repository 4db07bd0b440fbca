import Telebridge.Json.Record
import Telebridge.Text.Decimal
set_option autoImplicit false

/-! # Gateway errors

The error exchanged between the gateway and its providers: an identifier for machines, a code in the
manner of HTTP, and a detail for people. -/

namespace Telebridge

/-- An error of the gateway. -/
structure GatewayError where
  id : String
  code : UInt16
  detail : String
deriving DecidableEq, Inhabited

namespace GatewayError

/-- The request makes no sense. -/
def badRequest (id detail : String) : GatewayError := ⟨id, 400, detail⟩

/-- Nobody is logged in. -/
def unauthorized (id detail : String) : GatewayError := ⟨id, 401, detail⟩

/-- The caller may not do this. -/
def forbidden (id detail : String) : GatewayError := ⟨id, 403, detail⟩

/-- There is no such thing. -/
def notFound (id detail : String) : GatewayError := ⟨id, 404, detail⟩

/-- The method is not supported here. -/
def methodNotAllowed (id detail : String) : GatewayError := ⟨id, 405, detail⟩

/-- Something went wrong inside. -/
def internal (id detail : String) : GatewayError := ⟨id, 500, detail⟩

/-- Something went wrong on the other side. -/
def badGateway (id detail : String) : GatewayError := ⟨id, 502, detail⟩

/-- The text of the error. -/
def message (e : GatewayError) : String :=
  e.id ++ ": " ++ e.detail ++ " (" ++ Text.showNat e.code.toNat ++ ")"

/-- The HTTP status: the code if it has three digits, else 500. -/
def status (e : GatewayError) : UInt16 :=
  if 100 ≤ e.code ∧ e.code ≤ 999 then e.code else 500

/-- The JSON form. -/
def toJson (e : GatewayError) : Json :=
  Json.obj [("id", Json.str e.id), ("code", .integer e.code.toNat), ("detail", Json.str e.detail)]

/-- Reads the JSON form. -/
def ofJson? (v : Json) : Option GatewayError := do
  match ← Json.record? ["id", "code", "detail"] v with
  | [id, code, detail] =>
    some ⟨← Json.required Json.asString? id, ← Json.required Json.asUInt16? code,
      ← Json.required Json.asString? detail⟩
  | _ => none

end GatewayError

end Telebridge
