import Telebridge.Outbound.Broadcast
import Telebridge.Outbound.Notify
import Telebridge.Session.Run
set_option autoImplicit false

/-! # An account as a provider

What a provider of the gateway is asked to do, done by an account: registering starts its session,
closing stops it, and a notification is a message to a private chat. -/

namespace Telebridge.App

/-- The name the provider goes by. -/
def name : String := "gotd"

/-- The gateway's error for metadata that does not configure an account. -/
def configError (e : ConfigError) : GatewayError :=
  let idError : GatewayError :=
    .badRequest "chat.bot.telegram.api_id.invalid" "telegram: api_id is invalid or missing"
  match e with
  | .missing key =>
    if key = MetadataKey.apiId then idError
    else if key = MetadataKey.apiHash then
      .badRequest "chat.bot.telegram.api_hash.required"
        "telegram: api_hash required but missing"
    else .badRequest "chat.bot.telegram.config.invalid" e.message
  | .invalid key _ =>
    if key = MetadataKey.apiId then idError
    else .badRequest "chat.bot.telegram.config.invalid" e.message

/-- The configuration that a profile's metadata gives. -/
def configure (metadata : Metadata) : Except GatewayError Config :=
  match Config.ofMetadata metadata with
  | .ok config => .ok config
  | .error e => .error (configError e)

/-- Starts the session, unless it runs already. -/
def register : Program (Except GatewayError Unit) := do
  match ← Session.start with
  | .ok () | .error .alreadyRunning => return .ok ()
  | .error e => return .error e.toGateway

/-- There is nothing to take back: the session goes on until it is closed. -/
def deregister : Program (Except GatewayError Unit) :=
  return .ok ()

/-- Stops the session. -/
def close : Program (Except GatewayError Unit) := do
  match ← Session.stop with
  | .ok () => return .ok ()
  | .error e => return .error e.toGateway

/-- A step that nobody waits for. -/
def inBackground (p : Program (Except GatewayError Unit)) : Program RunOutcome := do
  let _ ← p
  return .finished (.ok ())

end Telebridge.App
