import Telebridge.Text.Decimal
set_option autoImplicit false

/-! # URLs

The parts of a URL after parsing. Hosts, paths, queries and fragments are kept in their encoded
form, so writing a URL only puts the parts together. -/

namespace Telebridge

namespace Url

/-- Who serves a URL: host and port, and the credentials to use there. A default port is left out. -/
structure Authority where
  username : String := ""
  password : String := ""
  host : String
  port : Option Nat := none
deriving DecidableEq, Inhabited

/-- The path of a URL: segments, or a text without structure when nothing can be relative to it. -/
inductive Path where
  | segments (list : List String)
  | opaquePath (text : String)
deriving DecidableEq, Inhabited

end Url

/-- A parsed URL. -/
structure Url where
  scheme : String
  authority : Option Url.Authority
  path : Url.Path
  query : Option String := none
  fragment : Option String := none
deriving DecidableEq, Inhabited

namespace Url

/-- The schemes with known ports; their URLs always have a host, except for local files. -/
def defaultPort? : String → Option Nat
  | "http" | "ws" => some 80
  | "https" | "wss" => some 443
  | "ftp" => some 21
  | _ => none

/-- Whether a scheme is one of those that the standard treats specially. -/
def isSpecial (scheme : String) : Bool :=
  (defaultPort? scheme).isSome || scheme = "file"

/-- The credentials, host and port as text. -/
def Authority.text (a : Authority) : String :=
  let userinfo :=
    if a.username.isEmpty && a.password.isEmpty then ""
    else a.username ++ (if a.password.isEmpty then "" else ":" ++ a.password) ++ "@"
  let port := match a.port with
    | some n => ":" ++ Text.showNat n
    | none => ""
  userinfo ++ a.host ++ port

/-- The path as text: a slash before every segment. -/
def Path.text : Path → String
  | .segments list => String.join (list.map fun s => "/" ++ s)
  | .opaquePath text => text

/-- The text of a URL. -/
def text (u : Url) : String :=
  let authority := match u.authority with
    | some a => "//" ++ a.text
    | none =>
      match u.path with
      | .segments ("" :: _ :: _) => "/."
      | _ => ""
  let query := match u.query with
    | some q => "?" ++ q
    | none => ""
  let fragment := match u.fragment with
    | some f => "#" ++ f
    | none => ""
  u.scheme ++ ":" ++ authority ++ u.path.text ++ query ++ fragment

/-- Whether the URL is one that can be fetched. -/
def isWeb (u : Url) : Bool :=
  u.scheme = "http" || u.scheme = "https"

/-- The last segment of the path, empty if there is none. -/
def basename (u : Url) : String :=
  match u.path with
  | .segments list => list.getLast?.getD ""
  | .opaquePath _ => ""

end Url

end Telebridge
