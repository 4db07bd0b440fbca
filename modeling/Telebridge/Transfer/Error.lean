import Telebridge.Call.CallError
import Telebridge.Gateway.Error
import Telebridge.Program.External
set_option autoImplicit false

/-! # Transfer errors

Why a file could not be brought from the server to the storage, or from the web to the server. -/

namespace Telebridge

/-- The customary reason of an HTTP status, empty if there is none. -/
def statusReason (status : Nat) : String :=
  match status with
  | 400 => "Bad Request" | 401 => "Unauthorized" | 402 => "Payment Required" | 403 => "Forbidden"
  | 404 => "Not Found" | 405 => "Method Not Allowed" | 406 => "Not Acceptable"
  | 407 => "Proxy Authentication Required" | 408 => "Request Timeout" | 409 => "Conflict"
  | 410 => "Gone" | 411 => "Length Required" | 412 => "Precondition Failed"
  | 413 => "Payload Too Large" | 414 => "URI Too Long" | 415 => "Unsupported Media Type"
  | 416 => "Range Not Satisfiable" | 417 => "Expectation Failed" | 418 => "I'm a teapot"
  | 421 => "Misdirected Request" | 422 => "Unprocessable Entity" | 423 => "Locked"
  | 424 => "Failed Dependency" | 425 => "Too Early" | 426 => "Upgrade Required"
  | 428 => "Precondition Required" | 429 => "Too Many Requests"
  | 431 => "Request Header Fields Too Large" | 451 => "Unavailable For Legal Reasons"
  | 500 => "Internal Server Error" | 501 => "Not Implemented" | 502 => "Bad Gateway"
  | 503 => "Service Unavailable" | 504 => "Gateway Timeout"
  | 505 => "HTTP Version Not Supported" | 506 => "Variant Also Negotiates"
  | 507 => "Insufficient Storage" | 508 => "Loop Detected" | 510 => "Not Extended"
  | 511 => "Network Authentication Required"
  | _ => ""

/-- Why a transfer failed. -/
inductive TransferError where
  | call (e : CallError)
  | cdnRedirect (dcId : Int32)
  | storage (e : GatewayError)
  | web (url : String) (e : FetchError)
  | status (url : String) (code : Nat)
deriving DecidableEq

/-- The text of the error. -/
def TransferError.message : TransferError → String
  | .call e => e.message
  | .cdnRedirect dcId =>
    "file is served from CDN DC" ++ Text.showInt32 dcId ++ "; redirect not supported"
  | .storage e => "storage: " ++ e.message
  | .web url e => "fetch " ++ url ++ ": " ++ e.message
  | .status url code =>
    "fetch " ++ url ++ ": (" ++ Text.showNat code ++ ") " ++ statusReason code

end Telebridge
