import Telebridge.Text.Quoted
import Telebridge.Text.Blank
import Telebridge.Text.Decimal
import Telebridge.Data.Table
import Telebridge.Number.Scientific
import Telebridge.Number.Shortest
import Telebridge.Number.Fixed
import Telebridge.Encoding.Base64
import Telebridge.Encoding.Form
import Telebridge.Json.Reader
import Telebridge.Json.Writer
import Telebridge.Json.Record
import Telebridge.Crypto.Srp
import Telebridge.Schema.Request
import Telebridge.Call.Retry
import Telebridge.Gateway.Error
import Telebridge.Envelope.Message
import Telebridge.Envelope.Broadcast
import Telebridge.Account.Config
import Telebridge.Account.PeerDirectory
import Telebridge.Account.AuthSignal
import Telebridge.Url.Reader
import Telebridge.Media.Outgoing
import Telebridge.Media.PartBuffer
import Telebridge.Account.Basic
import Telebridge.Program.Basic
import Telebridge.Call.Pipeline
import Telebridge.Login.Steps
import Telebridge.Transfer.Download
import Telebridge.Transfer.Upload
import Telebridge.Inbound.Handler
import Telebridge.Outbound.Broadcast
import Telebridge.Outbound.Notify
import Telebridge.Session.Run
import Telebridge.ControlPlane.Server
import Telebridge.Provider.App
import Telebridge.Provider.Registry
import Telebridge.Provider.Factory
import Telebridge.Machine.Run
import Telebridge.JsonForm.Reply
import Telebridge.Sandbox.Spec
import Telebridge.Proofs.Program.Conduct
import Telebridge.Proofs.Program.Safety
import Telebridge.Proofs.Program.Return
import Telebridge.Proofs.Call.Pipeline
import Telebridge.Proofs.Data.Bytes
import Telebridge.Proofs.Transfer.Traffic
import Telebridge.Proofs.Transfer.Download
import Telebridge.Proofs.Transfer.DownloadFailure
import Telebridge.Proofs.Transfer.DownloadServed
import Telebridge.Proofs.Call.Retry
import Telebridge.Proofs.Call.RetryCourse
import Telebridge.Proofs.Media.PartBuffer
import Telebridge.Proofs.Transfer.Upload
import Telebridge.Proofs.Transfer.UploadFailure
import Telebridge.Proofs.Account.AuthSignal
import Telebridge.Proofs.Program.Turns
import Telebridge.Proofs.Session.Watch
import Telebridge.Proofs.Data.Table
import Telebridge.Proofs.Session.Persist
import Telebridge.Proofs.Session.EarlyEnd
import Telebridge.Proofs.Machine.Turn
import Telebridge.Proofs.Account.Subscription
import Telebridge.Proofs.Session.WatchSync
import Telebridge.Proofs.Call.Persistence
import Telebridge.Proofs.Media.PartKind
import Telebridge.Proofs.Outbound.Broadcast
import Telebridge.Proofs.Transfer.UploadKind
import Telebridge.Proofs.Account.Backup
import Telebridge.Proofs.Account.PeerDirectory
import Telebridge.Proofs.Login.Conduct
import Telebridge.Proofs.Login.Tokens
import Telebridge.Proofs.Outbound.Duplicates
import Telebridge.Proofs.Program.Race
import Telebridge.Proofs.Session.Ready
import Telebridge.Proofs.Session.Restart
import Telebridge.Proofs.Session.Store
import Telebridge.Proofs.Encoding.Octets
import Telebridge.Proofs.Crypto.Srp
import Telebridge.Proofs.Program.Finished
import Telebridge.Proofs.Program.Handled
import Telebridge.Proofs.Call.Transparency
import Telebridge.Proofs.Call.Typed
import Telebridge.Proofs.Transfer.DownloadConduct
import Telebridge.Proofs.Account.Snapshots
import Telebridge.Proofs.Inbound.Conduct
import Telebridge.Proofs.Inbound.Dispatch
import Telebridge.Proofs.Inbound.Handler
import Telebridge.Proofs.Inbound.Attributes
import Telebridge.Proofs.Provider.Factory
import Telebridge.Proofs.Login.CodePairing
import Telebridge.Proofs.Account.DirectoryLog
import Telebridge.Proofs.Account.Restore
import Telebridge.Proofs.Session.DialogPages
import Telebridge.Proofs.Session.DialogDescent
import Telebridge.Proofs.ControlPlane.Refusal
import Telebridge.Proofs.Text.Numeral
import Telebridge.Proofs.Outbound.Correspondence
import Telebridge.Proofs.Outbound.PhoneLookup
import Telebridge.Proofs.Program.Ensemble
import Telebridge.Proofs.Program.Calling
import Telebridge.Proofs.Session.Ending
import Telebridge.Proofs.Session.Background
import Telebridge.Proofs.Session.Lifecycle
import Telebridge.Proofs.Login.Bystanders
import Telebridge.Proofs.Login.LogOut
import Telebridge.Proofs.Login.SignIn
import Telebridge.Proofs.Login.TokenRing
import Telebridge.Proofs.Session.LatestSave
import Telebridge.Proofs.Envelope.Lossless
import Telebridge.Proofs.Transfer.PublicLink
import Telebridge.Proofs.Call.RawMessage
import Telebridge.Proofs.Media.Disposition
import Telebridge.Proofs.Session.Subscriptions
