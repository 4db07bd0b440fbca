import Telebridge.Proofs.Call.Pipeline
import Telebridge.Proofs.Data.Bytes
import Telebridge.Transfer.Download
set_option autoImplicit false

/-! # The traffic of a download

A download is watched at its two ends. `Download.fileCalls` are the parts that were asked for, with
the server's answers, and `Download.storageLog` is what the storage got to see. Both are read off the
events of a run. -/

namespace Telebridge.Download

/-! ## The server -/

/-- A request for a part of a file, and its answer. -/
abbrev FileCall := FileQuery × Except CallError Reply

/-- A request for a part, if the event is one. -/
def fileCall? : Event → Option FileCall
  | .answered (.call (.getFile query)) answer => some (query, answer)
  | _ => none

/-- The requests for parts, with their answers. -/
def fileCalls (t : List Event) : List FileCall :=
  t.filterMap fileCall?

/-- What an answer to a request for a part means. -/
def fileReply (answer : Except CallError Reply) : Except CallError FileReply :=
  Pipeline.outcome (.getFile default) answer

/-- The bytes in an answer. -/
def partBytes? (answer : Except CallError Reply) : Option ByteArray :=
  match fileReply answer with
  | .ok (.part _ _ bytes) => some bytes
  | _ => none

/-- The parts that have arrived. -/
def received (calls : List FileCall) : List ByteArray :=
  calls.filterMap fun c => partBytes? c.2

/-- The request that follows: for the bytes after those that have arrived. -/
def nextQuery (location : FileLocation) (limit : Nat) (calls : List FileCall) : FileQuery :=
  { location
    offset := Int64.ofNat (Bytes.concat (received calls)).size
    limit := Int32.ofNat limit }

/-- Every request is for the bytes after those that had arrived. -/
def InOrder (location : FileLocation) (limit : Nat) (calls : List FileCall) : Prop :=
  ∀ i (h : i < calls.length), calls[i].1 = nextQuery location limit (calls.take i)

/-! ## The storage -/

/-- What the storage gets to see: an upload that is opened, a frame of it, and its end. -/
inductive StorageEvent where
  | opened (answer : Except GatewayError Nat)
  | sent (upload : Nat) (bytes : ByteArray)
  | closed (upload : Nat)

/-- What the storage sees of an event. -/
def storageEvent? : Event → Option StorageEvent
  | .answered (.openUpload _) answer => some (.opened answer)
  | .answered (.sendFrame upload bytes) _ => some (.sent upload bytes)
  | .answered (.closeUpload upload) _ => some (.closed upload)
  | _ => none

/-- What the storage sees. -/
def storageLog (t : List Event) : List StorageEvent :=
  t.filterMap storageEvent?

/-- An upload of parts that is still open. -/
def openLog (upload : Nat) (parts : List ByteArray) : List StorageEvent :=
  .opened (.ok upload) :: (parts.filter fun bytes => !bytes.isEmpty).map (.sent upload)

/-- A complete upload: it is opened once, the parts that are not empty are sent in order, a single
empty frame follows, and it is closed once. -/
def fullLog (upload : Nat) (parts : List ByteArray) : List StorageEvent :=
  openLog upload parts ++ [.sent upload ByteArray.empty, .closed upload]

/-- The frames that the storage sees. -/
def sentFrames (log : List StorageEvent) : List ByteArray :=
  log.filterMap fun
    | .sent _ bytes => some bytes
    | _ => none

/-! ## Lemmas -/

/-- The meaning of an answer does not depend on the part that was asked for. -/
theorem outcome_getFile (query : FileQuery) (answer : Except CallError Reply) :
    Pipeline.outcome (.getFile query) answer = fileReply answer := by
  cases answer with
  | error e => rfl
  | ok reply =>
    simp only [fileReply, Pipeline.outcome, Request.expected, Request.method]
    cases reply.value? .file <;> rfl

@[simp] theorem fileCalls_nil : fileCalls [] = [] := rfl

@[simp] theorem storageLog_nil : storageLog [] = [] := rfl

@[simp] theorem fileCalls_append (t u : List Event) :
    fileCalls (t ++ u) = fileCalls t ++ fileCalls u :=
  List.filterMap_append

@[simp] theorem storageLog_append (t u : List Event) :
    storageLog (t ++ u) = storageLog t ++ storageLog u :=
  List.filterMap_append

@[simp] theorem received_nil : received [] = [] := rfl

@[simp] theorem received_append (c d : List FileCall) :
    received (c ++ d) = received c ++ received d :=
  List.filterMap_append

theorem received_eq (calls : List FileCall) :
    received calls = (calls.map Prod.snd).filterMap partBytes? := by
  rw [received, List.filterMap_map]
  rfl

/-- The frames of a complete upload make up the parts. -/
theorem concat_sentFrames (upload : Nat) (parts : List ByteArray) :
    Bytes.concat (sentFrames (fullLog upload parts)) = Bytes.concat parts := by
  have h (l : List ByteArray) : sentFrames (l.map (.sent upload)) = l := by
    induction l with
    | nil => rfl
    | cons bytes l ih => exact congrArg (bytes :: ·) ih
  rw [fullLog, openLog, sentFrames, List.filterMap_append, List.filterMap_cons_none rfl, ← sentFrames,
    h, ← Bytes.concat_filter parts]
  simp

theorem inOrder_nil (location : FileLocation) (limit : Nat) : InOrder location limit [] :=
  fun _ h => absurd h (Nat.not_lt_zero _)

/-- Requests in order are followed by the next one. -/
theorem InOrder.snoc {location : FileLocation} {limit : Nat} {calls : List FileCall}
    (h : InOrder location limit calls) (answer : Except CallError Reply) :
    InOrder location limit (calls ++ [(nextQuery location limit calls, answer)]) := by
  intro i hi
  rw [List.length_append, List.length_singleton] at hi
  by_cases hlt : i < calls.length
  · rw [List.getElem_append_left hlt, List.take_append_of_le_length (Nat.le_of_lt hlt)]
    exact h i hlt
  · obtain rfl : i = calls.length := by omega
    simp

/-- A retry repeats the request. -/
theorem InOrder.retry {location : FileLocation} {limit : Nat} {calls : List FileCall}
    (h : InOrder location limit calls) {i : Nat} (hi : i + 1 < calls.length)
    (he : partBytes? calls[i].2 = none) : calls[i + 1].1 = calls[i].1 := by
  rw [h i (by omega), h (i + 1) hi]
  have hr : received (calls.take (i + 1)) = received (calls.take i) := by
    rw [List.take_add_one, received_append, List.getElem?_eq_getElem (by omega)]
    simp [received, he]
  simp only [nextQuery, hr]

end Telebridge.Download
