import Telebridge.Encoding.Form
import Telebridge.Text.Decimal
import Telebridge.Url.Domain
import Telebridge.Url.Percent
set_option autoImplicit false

/-! # Hosts of URLs

The host of a web address is a domain, an IPv4 address (in any of its historic spellings) or an IPv6
address in brackets. Domains are written as their mapping to ASCII says. Hosts of other schemes are
taken as they are. -/

namespace Telebridge.Url

/-! ## Numbers in addresses -/

/-- The value of a digit in a base of at most sixteen. -/
def digitIn? (base : Nat) (c : Char) : Option Nat :=
  let n := c.toNat
  let v :=
    if 48 ≤ n ∧ n ≤ 57 then n - 48
    else if 97 ≤ n ∧ n ≤ 102 then n - 87
    else if 65 ≤ n ∧ n ≤ 70 then n - 55
    else 16
  if v < base then some v else none

/-- The number that some digits write. -/
def numberIn? (base : Nat) (cs : List Char) : Option Nat :=
  cs.foldlM (fun n c => (digitIn? base c).map (n * base + ·)) 0

/-- A part of an IPv4 address: decimal, octal after `0`, or hexadecimal after `0x`. -/
def ipv4Part? : List Char → Option Nat
  | [] => none
  | '0' :: 'x' :: cs | '0' :: 'X' :: cs => numberIn? 16 cs
  | '0' :: c :: cs => numberIn? 8 (c :: cs)
  | cs => numberIn? 10 cs

/-- The parts of a host, without an empty one after a final dot. -/
def hostParts (host : List Char) : List (List Char) :=
  let parts := splitDots host
  if parts.length > 1 && parts.getLast? = some [] then parts.dropLast else parts

/-- Whether a host has to be an IPv4 address: its last part is a number. -/
def endsInNumber (host : List Char) : Bool :=
  match (hostParts host).getLast? with
  | some [] | none => false
  | some last => last.all Char.isDigit ||
    (match last with
      | '0' :: 'x' :: cs | '0' :: 'X' :: cs => cs.all fun c => (digitIn? 16 c).isSome
      | _ => false)

/-- An IPv4 address as a number: the parts but the last are bytes, the last fills what is left. -/
def ipv4? (host : List Char) : Option Nat := do
  let parts := hostParts host
  if parts.length > 4 then none
  let numbers ← parts.mapM ipv4Part?
  let last ← numbers.getLast?
  let bytes := numbers.dropLast
  if bytes.any (· > 255) || last ≥ Nat.pow 256 (5 - numbers.length) then none
  some (last + ((bytes.mapIdx fun i b => b * Nat.pow 256 (3 - i)).foldl (· + ·) 0))

/-- An IPv4 address with four decimal parts. -/
def ipv4Text (n : Nat) : List Char :=
  [n / Nat.pow 2 24 % 256, n / Nat.pow 2 16 % 256, n / Nat.pow 2 8 % 256, n % 256].map Text.natDigits
    |>.intersperse ['.'] |>.flatten

/-! ## IPv6 -/

/-- Splits at every colon. -/
def splitColons : List Char → List (List Char)
  | [] => [[]]
  | c :: rest =>
    if c = ':' then [] :: splitColons rest
    else match splitColons rest with
      | part :: parts => (c :: part) :: parts
      | [] => [[c]]

/-- A decimal byte without leading zeros. -/
def strictByte? (cs : List Char) : Option Nat := do
  let n ← Text.readNat? cs
  if n > 255 || Text.natDigits n != cs then none
  some n

/-- The pieces of one side of an IPv6 address; the last may be an IPv4 address. -/
def pieces? (parts : List (List Char)) : Option (List Nat) := do
  let groups ← parts.mapIdxM fun i part =>
    if i + 1 = parts.length && part.contains '.' then do
      match ← (splitDots part).mapM strictByte? with
      | [a, b, c, d] => some [a * 256 + b, c * 256 + d]
      | _ => none
    else if part.isEmpty || part.length > 4 then none
    else (numberIn? 16 part).map fun n => [n]
  some groups.flatten

/-- The eight pieces of an IPv6 address. -/
def ipv6? (text : List Char) : Option (List Nat) := do
  -- at most one pair of adjacent colons stands for a run of zero pieces
  let rec gap (before : List Char) : List Char → Option (List Char × List Char)
    | ':' :: ':' :: rest => some (before.reverse, rest)
    | c :: rest => gap (c :: before) rest
    | [] => none
  match gap [] text with
  | none =>
    let all ← pieces? (splitColons text)
    if all.length = 8 then some all else none
  | some (before, after) =>
    let front ← if before.isEmpty then some [] else pieces? (splitColons before)
    let back ← if after.isEmpty then some [] else pieces? (splitColons after)
    if before.contains '.' || front.length + back.length > 7 then none
    some (front ++ List.replicate (8 - front.length - back.length) 0 ++ back)

/-- The length of the run of zeros at the front. -/
def zeroRun (pieces : List Nat) : Nat :=
  (pieces.takeWhile (· = 0)).length

/-- The place and length of the first longest run of zeros. -/
def longestRun (pieces : List Nat) : Nat × Nat :=
  (List.range pieces.length).foldl
    (fun best i => let n := zeroRun (pieces.drop i); if n > best.2 then (i, n) else best) (0, 0)

/-- Pieces in hexadecimal, separated by colons. -/
def piecesText (pieces : List Nat) : List Char :=
  (pieces.map (Nat.toDigits 16)).intersperse [':'] |>.flatten

/-- An IPv6 address in brackets, its longest run of two or more zeros shortened. -/
def ipv6Text (pieces : List Nat) : List Char :=
  let (start, count) := longestRun pieces
  let inside :=
    if count < 2 then piecesText pieces
    else piecesText (pieces.take start) ++ [':', ':'] ++ piecesText (pieces.drop (start + count))
  ['['] ++ inside ++ [']']

/-! ## Hosts -/

/-- Characters that no host may hold. -/
def isForbiddenInHost (c : Char) : Bool :=
  ['\x00', '\t', '\n', '\r', ' ', '#', '/', ':', '<', '>', '?', '@', '[', '\\', ']', '^', '|'].contains c

/-- Characters that no domain may hold. -/
def isForbiddenInDomain (c : Char) : Bool :=
  isForbiddenInHost c || c = '%' || c.toNat < 0x20 || c = '\x7f'

/-- The host of a web address in its written form. -/
def specialHost? [DomainMapping] (text : List Char) : Option (List Char) :=
  match text with
  | '[' :: rest =>
    if rest.getLast? = some ']' then (ipv6? rest.dropLast).map ipv6Text else none
  | _ => do
    let bytes := Form.percentDecode (Utf8.encode (String.ofList text)).data.toList
    let domain ← DomainMapping.toAscii? (Utf8.decodeLossy bytes)
    if domain.isEmpty || domain.any isForbiddenInDomain then none
    else if endsInNumber domain then (ipv4? domain).map ipv4Text
    else some domain

/-- The host of any other URL in its written form. -/
def opaqueHost? (text : List Char) : Option (List Char) :=
  match text with
  | '[' :: rest =>
    if rest.getLast? = some ']' then (ipv6? rest.dropLast).map ipv6Text else none
  | _ => if text.any isForbiddenInHost then none else some (percentEncode inControlSet text)

end Telebridge.Url
