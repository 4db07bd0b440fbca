import Telebridge.Account.Config
import Telebridge.Gateway.Error
set_option autoImplicit false

/-! # Bot profiles

What a provider can read of the bot profile it works for. A profile is named by its id within the
surroundings of the program; its contents may change at any time. -/

namespace Telebridge

/-- A bot profile, by number. -/
abbrev ProfileId := Nat

/-- The contents of a bot profile at one moment. `loginPage` is the login form, if one is
installed. -/
structure Profile where
  botId : Int64 := 1
  domainId : Int64 := 1
  enabled : Bool := true
  hostUrl : String := ""
  loginPage : Option String := none
  metadata : Metadata := Table.empty
deriving DecidableEq, Inhabited

namespace Profile

/-- A metadata value, empty when it is missing. -/
def metadataText (p : Profile) (key : String) : String :=
  (p.metadata.get? key).getD ""

/-- A description by the ids. -/
def describe (p : Profile) : String :=
  "GatewayHandle \x7b bot_id: " ++ Text.showInt64 p.botId ++ ", domain_id: " ++
    Text.showInt64 p.domainId ++ " \x7d"

end Profile

end Telebridge
