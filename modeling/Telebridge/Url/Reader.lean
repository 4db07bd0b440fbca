import Telebridge.Url.Basic
import Telebridge.Url.Host
set_option autoImplicit false

/-! # Reading URLs and resolving references

`Url.ofString?` reads an absolute URL, `Url.join?` a reference relative to a base URL. Both follow the
URL standard of the web: blanks at the ends and line breaks are dropped, backslashes count as slashes
in web addresses, dot segments are resolved, and characters that may not stand in a part are
percent-encoded. -/

namespace Telebridge.Url

/-! ## Characters of the input -/

/-- Drops control characters and blanks at the ends, and tabs and line breaks everywhere. -/
def cleanInput (s : String) : List Char :=
  let isEdge := fun (c : Char) => c.toNat ≤ 0x20
  let cs := (s.toList.dropWhile isEdge).reverse.dropWhile isEdge |>.reverse
  cs.filter fun c => !(c = '\t' || c = '\n' || c = '\r')

/-- What separates path segments under a scheme. -/
def isSlash (special : Bool) (c : Char) : Bool :=
  c = '/' || (special && c = '\\')

/-- The scheme in lower case and the rest after its colon. -/
def scheme? (cs : List Char) : Option (String × List Char) :=
  let isPart := fun (c : Char) => c.isAlphanum || c = '+' || c = '-' || c = '.'
  match cs.dropWhile isPart with
  | ':' :: rest =>
    match cs.takeWhile isPart with
    | c :: more =>
      if c.isAlpha then some (String.ofList ((c :: more).map Char.toLower), rest) else none
    | [] => none
  | _ => none

/-- Splits at the first occurrence of `sep`; the second part starts after it. -/
def splitFirst (sep : Char) (cs : List Char) : List Char × Option (List Char) :=
  match cs.dropWhile (· != sep) with
  | [] => (cs, none)
  | _ :: rest => (cs.takeWhile (· != sep), some rest)

/-- Splits at the last occurrence of `sep`. -/
def splitLast? (sep : Char) (cs : List Char) : Option (List Char × List Char) :=
  match cs.reverse.dropWhile (· != sep) with
  | [] => none
  | _ :: before => some (before.reverse, (cs.reverse.takeWhile (· != sep)).reverse)

/-! ## Path, query and fragment -/

/-- A segment that stands for the current directory. -/
def isSingleDot (segment : List Char) : Bool :=
  segment = ['.'] || segment.map Char.toLower = "%2e".toList

/-- A segment that stands for the parent directory. -/
def isDoubleDot (segment : List Char) : Bool :=
  ["..", ".%2e", "%2e.", "%2e%2e"].contains (String.ofList (segment.map Char.toLower))

/-- The parts between slashes; there is always at least one. -/
def splitSlashes (special : Bool) : List Char → List (List Char)
  | [] => [[]]
  | c :: rest =>
    if isSlash special c then [] :: splitSlashes special rest
    else match splitSlashes special rest with
      | part :: parts => (c :: part) :: parts
      | [] => [[c]]

/-- Adds raw segments to a path, resolving dot segments. A dot segment at the end leaves an empty
segment behind. -/
def addSegments (path : List String) : List (List Char) → List String
  | [] => path
  | segment :: rest =>
    if isDoubleDot segment then
      let up := path.dropLast
      addSegments (if rest.isEmpty then up ++ [""] else up) rest
    else if isSingleDot segment then
      addSegments (if rest.isEmpty then path ++ [""] else path) rest
    else addSegments (path ++ [String.ofList (percentEncode inPathSet segment)]) rest

/-- Splits off the query and the fragment. -/
def splitTail (cs : List Char) : List Char × Option (List Char) × Option (List Char) :=
  let (cs, fragment) := splitFirst '#' cs
  let (cs, query) := splitFirst '?' cs
  (cs, query, fragment)

/-- A query in its written form. -/
def queryText (special : Bool) (q : List Char) : String :=
  String.ofList (percentEncode (if special then inSpecialQuerySet else inQuerySet) q)

/-- A fragment in its written form. -/
def fragmentText (f : List Char) : String :=
  String.ofList (percentEncode inFragmentSet f)

/-- Sets path, query and fragment from the input after a base path. -/
def withPath (u : Url) (basePath : List String) (path : List Char)
    (query fragment : Option (List Char)) : Url :=
  let special := isSpecial u.scheme
  { u with
    path := .segments (addSegments basePath (splitSlashes special path))
    query := query.map (queryText special)
    fragment := fragment.map fragmentText }

/-! ## Authority -/

/-- Splits a port off a host; a colon inside brackets belongs to the host. -/
def splitPort (cs : List Char) : List Char × Option (List Char) :=
  match splitLast? ']' cs with
  | some (before, after) =>
    match after with
    | ':' :: port => (before ++ [']'], some port)
    | [] => (cs, none)
    | _ => (cs, none)
  | none => splitFirst ':' cs

/-- A port: empty or the default one is none. -/
def port? (scheme : String) : Option (List Char) → Option (Option Nat)
  | none | some [] => some none
  | some digits => do
    let n ← Text.readNat? digits
    if n > 65535 then none
    some (if defaultPort? scheme = some n then none else some n)

/-- The authority written before the path. -/
def authority? [DomainMapping] (scheme : String) (cs : List Char) : Option Authority := do
  let (userinfo, hostPort) := match splitLast? '@' cs with
    | some (userinfo, rest) => (some userinfo, rest)
    | none => (none, cs)
  let (username, password) := splitFirst ':' (userinfo.getD [])
  let encode := fun s => String.ofList (percentEncode inUserinfoSet s)
  let (hostText, portText) := splitPort hostPort
  let port ← port? scheme portText
  if hostText.isEmpty && (userinfo.isSome || portText.isSome || (isSpecial scheme && scheme != "file")) then none
  let host ←
    if scheme = "file" && hostText.isEmpty then some []
    else if isSpecial scheme then specialHost? hostText
    else opaqueHost? hostText
  let host := if scheme = "file" && host = "localhost".toList then [] else host
  some {
    username := encode username
    password := encode (password.getD [])
    host := String.ofList host
    port }

/-- The path of a URL whose authority is followed by `path`; special URLs have at least one segment. -/
def afterAuthority (scheme : String) (authority : Authority) (path : List Char)
    (query fragment : Option (List Char)) : Url :=
  let u : Url := { scheme, authority := some authority, path := .segments [] }
  match path with
  | [] =>
    let segments := if isSpecial scheme then [""] else []
    { u with
      path := .segments segments
      query := query.map (queryText (isSpecial scheme))
      fragment := fragment.map fragmentText }
  | _ :: rest => withPath u [] rest query fragment

/-- A URL from its scheme and the input after the two slashes. -/
def ofAuthority? [DomainMapping] (scheme : String) (cs : List Char) : Option Url := do
  let special := isSpecial scheme
  let (front, query, fragment) := splitTail cs
  let authority ← authority? scheme (front.takeWhile fun c => !isSlash special c)
  some (afterAuthority scheme authority (front.dropWhile fun c => !isSlash special c) query fragment)

/-! ## Whole URLs -/

/-- Resolves a reference without a scheme against a base that has path segments. -/
def ofRelative? [DomainMapping] (base : Url) (segments : List String) (cs : List Char) : Option Url :=
  let special := isSpecial base.scheme
  let slashes := (cs.takeWhile (isSlash special)).length
  if slashes ≥ 2 then
    ofAuthority? base.scheme (if special then cs.dropWhile (isSlash special) else cs.drop 2)
  else
    let (path, query, fragment) := splitTail cs
    match path with
    | [] =>
      some { base with
        query := if query.isSome then query.map (queryText special) else base.query
        fragment := fragment.map fragmentText }
    | c :: rest =>
      if isSlash special c then some (withPath base [] rest query fragment)
      else some (withPath base segments.dropLast path query fragment)

/-- An absolute URL from its scheme and the input after the colon. -/
def ofScheme? [DomainMapping] (scheme : String) (cs : List Char) : Option Url :=
  if scheme = "file" then
    match cs with
    | a :: b :: rest =>
      if isSlash true a && isSlash true b then ofAuthority? scheme rest
      else ofRelative? { scheme, authority := some { host := "" }, path := .segments [] } [] cs
    | _ => ofRelative? { scheme, authority := some { host := "" }, path := .segments [] } [] cs
  else if isSpecial scheme then ofAuthority? scheme (cs.dropWhile (isSlash true))
  else
    match cs with
    | '/' :: '/' :: rest => ofAuthority? scheme rest
    | '/' :: rest =>
      let (path, query, fragment) := splitTail rest
      some (withPath { scheme, authority := none, path := .segments [] } [] path query fragment)
    | _ =>
      let (path, query, fragment) := splitTail cs
      some {
        scheme, authority := none
        path := .opaquePath (String.ofList (percentEncode inControlSet path))
        query := query.map (queryText false)
        fragment := fragment.map fragmentText }

/-- Reads an absolute URL. -/
def ofString? [DomainMapping] (s : String) : Option Url := do
  let (scheme, rest) ← scheme? (cleanInput s)
  ofScheme? scheme rest

/-- Resolves a reference against a base URL. -/
def join? [DomainMapping] (base : Url) (reference : String) : Option Url :=
  let cs := cleanInput reference
  match scheme? cs with
  | some (scheme, rest) =>
    match base.path with
    | .segments segments =>
      if isSpecial scheme && scheme != "file" && scheme = base.scheme &&
          (rest.takeWhile (isSlash true)).length < 2 then
        ofRelative? base segments rest
      else ofScheme? scheme rest
    | .opaquePath _ => ofScheme? scheme rest
  | none =>
    match base.path with
    | .segments segments => ofRelative? base segments cs
    | .opaquePath _ =>
      match cs with
      | '#' :: f => some { base with fragment := some (fragmentText f) }
      | _ => none

end Telebridge.Url
