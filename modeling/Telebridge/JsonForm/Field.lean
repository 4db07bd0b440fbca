import Telebridge.Encoding.Octets
import Telebridge.Encoding.Utf8
import Telebridge.Json.Record
import Telebridge.Number.Scientific
import Telebridge.Number.Shortest
set_option autoImplicit false

/-! # The JSON form of schema values

Schema values are written as JSON objects. A variant has its name under `_`; a field that is missing
or null takes its default. Bytes are written in hexadecimal, as a text, or by length and pattern;
long ones are written by length and checksum. Floating-point numbers are texts. -/

namespace Telebridge

namespace Json

/-- The value of a field. -/
def field? (v : Json) (name : String) : Option Json :=
  match v with
  | .object fields => (fields.find? fun f => f.1.value? = some name).map Prod.snd
  | _ => none

/-- A field that is there and not null. -/
def present? (v : Json) (name : String) : Option Json :=
  match v.field? name with
  | some .null => none
  | w => w

/-- A field that has to be there. -/
def need {α : Type} (v : Json) (name : String) (read : Json → Option α) : Option α :=
  (v.field? name).bind read

/-- A field with a default. -/
def get {α : Type} (v : Json) (name : String) (default : α) (read : Json → Option α) : Option α :=
  match v.present? name with
  | some w => read w
  | none => some default

/-- A field that may be absent. -/
def find {α : Type} (v : Json) (name : String) (read : Json → Option α) : Option (Option α) :=
  match v.present? name with
  | some w => (read w).map some
  | none => some none

/-- A list, empty by default. -/
def getList {α : Type} (v : Json) (name : String) (read : Json → Option α) : Option (List α) :=
  v.get name [] (asList? read)

/-- A truth value, false by default. -/
def getBool (v : Json) (name : String) : Option Bool := v.get name false asBool?

/-- A 32-bit number, zero by default. -/
def getInt32 (v : Json) (name : String) : Option Int32 := v.get name 0 asInt32?

/-- A 64-bit number, zero by default. -/
def getInt64 (v : Json) (name : String) : Option Int64 := v.get name 0 asInt64?

/-- A text, empty by default. -/
def getString (v : Json) (name : String) : Option String := v.get name "" asString?

/-- The variant of a value. -/
def variant? (v : Json) : Option String := v.need "_" asString?

/-- A variant with its fields. -/
def variant (name : String) (fields : List (String × Json)) : Json :=
  obj (("_", str name) :: fields)

/-- A value that may be absent. -/
def nullable {α : Type} (write : α → Json) : Option α → Json
  | some a => write a
  | none => .null

/-- A list. -/
def list {α : Type} (write : α → Json) (items : List α) : Json :=
  .array (items.map write)

/-- A 32-bit number. -/
def int32 (n : Int32) : Json := .integer n.toInt

/-- A 64-bit number. -/
def int64 (n : Int64) : Json := .integer n.toInt

/-- Whether a value has everything that a pattern lists: the keys of objects, and arrays of the same
length item by item. -/
def isPart : Nat → Json → Json → Bool
  | 0, _, _ => false
  | depth + 1, .object pattern, .object fields =>
    pattern.all fun p =>
      (fields.find? fun f => f.1.value? = p.1.value?).any fun f => isPart depth p.2 f.2
  | depth + 1, .array patterns, .array items =>
    patterns.length = items.length &&
      (patterns.zip items).all fun (p, v) => isPart depth p v
  | _, .text a, .text b => a.value? = b.value?
  | _, .integer a, .integer b => a = b
  | _, .decimal a, .decimal b => a = b
  | _, .bool a, .bool b => a = b
  | _, .null, .null => true
  | _, _, _ => false

end Json

/-! ## Bytes and numbers -/

namespace JsonForm

/-- The bytes that hexadecimal digits write, two for each byte. -/
def hexBytes? : List Char → Option (List UInt8)
  | [] => some []
  | a :: b :: rest => do
    let byte := UInt8.ofNat ((← Json.hexValue? a) * 16 + (← Json.hexValue? b))
    return byte :: (← hexBytes? rest)
  | [_] => none

/-- Some bytes in hexadecimal. -/
def hex (bytes : List UInt8) : String :=
  String.ofList (bytes.flatMap fun b => [Json.hexDigit (b.toNat / 16), Json.hexDigit b.toNat])

/-- A byte array made from a rule. -/
def generate (length : Nat) (byte : Nat → UInt8) : ByteArray :=
  ⟨Array.ofFn fun i : Fin length => byte i⟩

/-- Reads bytes. -/
def bytes? (v : Json) : Option ByteArray :=
  match v with
  | .text t => do
    let bytes ← hexBytes? (← t.value?).toList
    return ⟨bytes.toArray⟩
  | _ =>
    match v.present? "text" with
    | some t => (Json.asString? t).map Utf8.encode
    | none => do
      let length := (← v.getInt64 "len").toInt.toNat
      match v.present? "fill" with
      | some b =>
        let fill := UInt8.ofNat (← Json.asInt64? b).toInt.toNat
        return generate length fun _ => fill
      | none => return generate length fun k => UInt8.ofNat (k % 251)

/-- The 64-bit checksum of some bytes (FNV-1a). -/
def checksum (bytes : ByteArray) : UInt64 :=
  bytes.foldl (fun h b => (h ^^^ b.toUInt64) * 0x100000001b3) 0xcbf29ce484222325

/-- Bytes up to this length are written out. -/
def writtenOut : Nat := 48

/-- Writes bytes. -/
def bytes (data : ByteArray) : Json :=
  if data.size ≤ writtenOut then Json.str (hex data.data.toList)
  else
    Json.obj [("len", .integer data.size),
      ("fnv", Json.str (hex (Octets.ofNat 8 (checksum data).toNat)))]

/-- Bytes, none by default. -/
def getBytes (v : Json) (name : String) : Option ByteArray :=
  v.get name ByteArray.empty bytes?

/-- Reads a floating-point number. -/
def float? (v : Json) : Option Binary64 :=
  (Json.asString? v).bind Binary64.ofDecimal?

/-- Writes a floating-point number. -/
def float (x : Binary64) : Json := Json.str x.shortest

/-- A floating-point number, zero by default. -/
def getFloat (v : Json) (name : String) : Option Binary64 :=
  v.get name (Binary64.zero false) float?

end JsonForm

end Telebridge
