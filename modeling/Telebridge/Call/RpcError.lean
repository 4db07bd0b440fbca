import Telebridge.Text.Decimal
set_option autoImplicit false

/-! # Errors of remote procedures

The server answers a rejected request with a code and a message such as `FLOOD_WAIT_30`. A number
after the last underscore is split off as the error's value (`RpcError.parse`), and
`RpcError.raw` puts it back. -/

namespace Telebridge

/-- A rejected request. -/
structure RpcError where
  code : Int32
  name : String
  value : Option UInt32
deriving DecidableEq, Inhabited

namespace RpcError

/-- What stands before and after the last underscore. -/
def splitLast : List Char → Option (List Char × List Char)
  | [] => none
  | c :: rest =>
    match splitLast rest with
    | some (before, after) => some (c :: before, after)
    | none => if c = '_' then some ([], rest) else none

/-- The name and the number of a message that ends in an underscore and a number below `2 ^ 32`. -/
def splitValue? (message : List Char) : Option (List Char × Nat) := do
  let (name, suffix) ← splitLast message
  let n ← Text.readNat? suffix
  if n < UInt32.size then some (name, n) else none

/-- The error that a code and a message stand for. -/
def parse (code : Int32) (message : String) : RpcError :=
  match splitValue? message.toList with
  | some (name, n) => ⟨code, String.ofList name, some (UInt32.ofNat n)⟩
  | none => ⟨code, message, none⟩

/-- The message with its number, as the server sends it. -/
def raw (e : RpcError) : String :=
  match e.value with
  | some v => e.name ++ "_" ++ Text.showNat v.toNat
  | none => e.name

/-- The error that asks for the login to be started again. -/
def authRestart : RpcError :=
  ⟨500, "AUTH_RESTART", none⟩

/-- The text of the error. -/
def message (e : RpcError) : String :=
  let value := match e.value with
    | some v => " (value: " ++ Text.showNat v.toNat ++ ")"
    | none => ""
  "RPC " ++ Text.showInt32 e.code ++ ": " ++ e.name ++ value

/-- Whether the name matches a pattern: `START*`, `*END`, or the whole name. -/
def matchesName (e : RpcError) (pattern : String) : Bool :=
  let name := e.name.toList
  match pattern.toList.reverse with
  | '*' :: start => start.reverse.isPrefixOf name
  | _ =>
    match pattern.toList with
    | '*' :: ending => ending.isSuffixOf name
    | whole => whole == name

/-- The seconds that a flood wait asks for. -/
def floodWait? (e : RpcError) : Option Nat :=
  if e.code = 420 ∧ (e.name = "FLOOD_WAIT" ∨ e.name = "FLOOD_PREMIUM_WAIT") then
    e.value.map UInt32.toNat
  else none

/-- The server gave up waiting for itself. -/
def isTimeout (e : RpcError) : Bool :=
  e.code = -503 || e.name.toList.map Char.toUpper = "TIMEOUT".toList

/-- The session's authorization is gone. An account that still needs its password has the same code,
but is in the middle of its login. -/
def isUnauthorized (e : RpcError) : Bool :=
  e.code = 401 && e.name != "SESSION_PASSWORD_NEEDED"

end RpcError

end Telebridge
