import Telebridge.Call.Pipeline
set_option autoImplicit false

/-! # Reading all dialogs

Asks for page after page of the account's dialogs, so that the directory learns every peer the account
talks to. Each page ends where the next one begins: at the date of its last dated message. Flood waits
and timeouts are sat out. -/

namespace Telebridge.DialogSync

/-- The date of the last dated message. -/
def lastDate? (messages : List MessageEntry) : Option Int32 :=
  messages.reverse.findSome? MessageEntry.date?

/-- Where the page after this one begins; none if this was the last. A full page of a longer list is
followed by another. -/
def nextOffset? (limit : Int32) : DialogPage → Option Int32
  | .slice _ list =>
    if limit.toInt.toNat ≤ list.messages.length then lastDate? list.messages else none
  | .full _ | .notModified _ => none

/-- Asks for the page that begins at `offset`; gives the offset of the next request. -/
def turn (limit : Int32) (offset : Int32) : Program (Int32 ⊕ Unit) := do
  let reply : Except CallError DialogPage ← Pipeline.call (.getDialogs { offsetDate := offset, limit })
  match reply with
  | .ok page =>
    match nextOffset? limit page with
    | some next => return .inl next
    | none => return .inr ()
  | .error e =>
    match e.backoff? with
    | none => return .inr ()
    | some ms =>
      match ← Program.pause ms with
      | .elapsed => return .inl offset
      | .cancelled => return .inr ()

/-- Reads all dialogs, newest first. -/
def run : Program Unit := do
  let limit ← Program.read fun a => a.config.dialogsPage
  Program.iterate 0 (turn limit)

end Telebridge.DialogSync
