import Telebridge.Json.Value
import Telebridge.Text.Decimal
set_option autoImplicit false

/-! # Typed reading of JSON values

Readers for the values that records hold. A record is written as an object, where unknown keys are
skipped and a known key may occur once, or as an array of its fields in order of declaration, where
fields may be missing at the end but nothing may follow the last. Which fields may be missing is for
the record to say (`required`, `optional`). -/

namespace Telebridge.Json

/-! ## Leaves -/

/-- A whole number that fits 64 bits. -/
def asInt64? : Json → Option Int64
  | .integer n => Text.fitInt64? n
  | _ => none

/-- A whole number that fits 32 bits. -/
def asInt32? : Json → Option Int32
  | .integer n => Text.fitInt32? n
  | _ => none

/-- A whole number that fits sixteen bits without a sign. -/
def asUInt16? : Json → Option UInt16
  | .integer n => if 0 ≤ n ∧ n < UInt16.size then some (UInt16.ofNat n.toNat) else none
  | _ => none

/-- A truth value. -/
def asBool? : Json → Option Bool
  | .bool b => some b
  | _ => none

/-- A string that means a text. -/
def asString? : Json → Option String
  | .text t => t.value?
  | _ => none

/-- A list of values that `read` accepts. -/
def asList? {α : Type} (read : Json → Option α) : Json → Option (List α)
  | .array items => items.mapM read
  | _ => none

/-- `null`, or a value that `read` accepts. -/
def asNullable? {α : Type} (read : Json → Option α) : Json → Option (Option α)
  | .null => some none
  | v => (read v).map some

/-- The fields of an object whose keys all mean a text. -/
def asFields? : Json → Option (List (String × Json))
  | .object fields => fields.mapM fun f => f.1.value?.map fun k => (k, f.2)
  | _ => none

/-! ## Records -/

/-- What a record gives for each of its declared field names, in order. -/
def record? (names : List String) : Json → Option (List (Option Json))
  | .object fields => do
    let keyed ← asFields? (.object fields)
    names.mapM fun name =>
      match keyed.filter fun f => f.1 = name with
      | [] => some none
      | [f] => some (some f.2)
      | _ => none
  | .array items =>
    if items.length ≤ names.length then
      some (items.map some ++ List.replicate (names.length - items.length) none)
    else none
  | _ => none

/-- A field that has to be there. -/
def required {α : Type} (read : Json → Option α) (given : Option Json) : Option α :=
  given.bind read

/-- A field with a value for when it is missing. -/
def optional {α : Type} (missing : α) (read : Json → Option α) : Option Json → Option α
  | none => some missing
  | some v => read v

/-- One of some words, written as a string or as the only key of an object with the value `null`. -/
def asWord? : Json → Option String
  | .text t => t.value?
  | .object [(k, .null)] => k.value?
  | _ => none

end Telebridge.Json
