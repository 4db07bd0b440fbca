import Telebridge.Schema.Media
set_option autoImplicit false

/-! # Cutting a body into parts

A body is sent in numbered parts while it arrives. All parts but the last have the same size; the
last is never empty unless the body is. Files of ten mebibytes and more are big files, whose parts
also announce how many there are, or -1 as long as that is not known. Without an announced length
the parts of a small file are held back until the body ends or turns out to be big. -/

namespace Telebridge

/-- Files at least this long are big. -/
def bigFileThreshold : Nat := 10 * 1024 * 1024

/-- How a part is sent: as part of a small file, or of a big one with so many parts. -/
inductive PartKind where
  | small
  | big (total : Int32)
deriving DecidableEq, Inhabited

/-- A part ready to be sent. -/
structure FilePart where
  index : Int32
  kind : PartKind
  bytes : ByteArray
deriving DecidableEq, Inhabited

/-- What is known about the file: small, big with so many parts or an unknown number, or neither. -/
inductive PartMode where
  | small
  | big (total : Option Int32)
  | undecided
deriving DecidableEq, Inhabited

/-- A body on its way: what has arrived but is not cut yet, and the parts that are held back. -/
structure PartBuffer where
  partSize : Nat
  mode : PartMode
  pending : ByteArray := ByteArray.empty
  held : List ByteArray := []
  next : Nat := 0
  size : Nat := 0
deriving Inhabited

namespace PartBuffer

/-- How a file is sent whose length is announced, or not. -/
def modeFor (partSize : Nat) : Option Nat → PartMode
  | none => .undecided
  | some length =>
    if bigFileThreshold ≤ length then
      .big (some (Int32.ofNat (max ((length + partSize - 1) / partSize) 1)))
    else .small

/-- An empty buffer for a body with the announced length, if there is one. -/
def start (partSize : Nat) (length : Option Nat) : PartBuffer :=
  { partSize, mode := modeFor partSize length }

/-- Takes parts of size `n` off the front as long as something is left behind them. -/
def cut (n : Nat) (data : ByteArray) : List ByteArray × ByteArray :=
  if _proper : 0 < n ∧ n < data.size then
    let rest := cut n (data.extract n data.size)
    (data.extract 0 n :: rest.1, rest.2)
  else ([], data)
termination_by data.size
decreasing_by
  simp only [ByteArray.size_extract]
  omega

/-- How the next part is sent. Of a big file with an unknown number of parts the last one tells. -/
def partKind (b : PartBuffer) (last : Bool) : PartKind :=
  match b.mode with
  | .big (some total) => .big total
  | .big none => .big (if last then Int32.ofNat b.next + 1 else -1)
  | .small | .undecided => .small

/-- Numbers parts and lets them go; `last` tells whether the last of them ends the file. -/
def release (b : PartBuffer) (last : Bool) : List ByteArray → List FilePart × PartBuffer
  | [] => ([], b)
  | bytes :: rest =>
    let part := ⟨Int32.ofNat b.next, b.partKind (last && rest.isEmpty), bytes⟩
    let r := release { b with next := b.next + 1 } last rest
    (part :: r.1, r.2)

/-- Takes a finished part: it is let go, or held back while the kind of file is undecided. -/
def put (b : PartBuffer) (bytes : ByteArray) (last : Bool) : List FilePart × PartBuffer :=
  match b.mode with
  | .undecided =>
    let held := b.held ++ [bytes]
    if bigFileThreshold ≤ b.size then
      { b with mode := .big none, held := [] }.release last held
    else if last then { b with mode := .small, held := [] }.release last held
    else ([], { b with held })
  | .small | .big _ => b.release last [bytes]

/-- Takes several finished parts, none of them the last. -/
def putAll (b : PartBuffer) : List ByteArray → List FilePart × PartBuffer
  | [] => ([], b)
  | bytes :: rest =>
    let first := b.put bytes false
    let others := first.2.putAll rest
    (first.1 ++ others.1, others.2)

/-- Takes more of the body; gives the parts that can go. -/
def write (b : PartBuffer) (data : ByteArray) : List FilePart × PartBuffer :=
  let pieces := cut b.partSize (b.pending ++ data)
  { b with pending := pieces.2, size := b.size + data.size }.putAll pieces.1

/-- Ends the body; gives the parts that are left, the last one among them. -/
def finish (b : PartBuffer) : List FilePart × PartBuffer :=
  { b with pending := ByteArray.empty }.put b.pending true

/-- The file that the parts make up. -/
def inputFile (b : PartBuffer) (id : Int64) (name : String) : InputFile :=
  match b.mode with
  | .big _ => .big id (Int32.ofNat b.next) name
  | .small | .undecided => .small id (Int32.ofNat b.next) name ""

end PartBuffer

end Telebridge
