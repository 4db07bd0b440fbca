import Telebridge.Json.Value
import Telebridge.Text.Decimal
set_option autoImplicit false

/-! # Writing JSON text

The compact form: no blanks, fields in order, strings as they are kept. -/

namespace Telebridge.Json

/-- A string with its quotes. -/
def Text.write (t : Text) : List Char :=
  '"' :: t.raw.map (fun c => c.getD '\uFFFD') ++ ['"']

mutual

/-- The text of a value. -/
def write : Json → List Char
  | .null => "null".toList
  | .bool true => "true".toList
  | .bool false => "false".toList
  | .integer n => Text.intDigits n
  | .decimal literal => literal
  | .text t => t.write
  | .array items => '[' :: writeItems items ++ [']']
  | .object fields => '\x7b' :: writeFields fields ++ ['\x7d']

/-- The items of an array, separated by commas. -/
def writeItems : List Json → List Char
  | [] => []
  | [v] => write v
  | v :: rest => write v ++ ',' :: writeItems rest

/-- The fields of an object, separated by commas. -/
def writeFields : List (Text × Json) → List Char
  | [] => []
  | [(k, v)] => k.write ++ ':' :: write v
  | (k, v) :: rest => k.write ++ ':' :: write v ++ ',' :: writeFields rest

end

/-- The text of a value. -/
def toText (v : Json) : String :=
  String.ofList v.write

end Telebridge.Json
