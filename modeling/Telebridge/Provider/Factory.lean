import Telebridge.Machine.Basic
import Telebridge.Provider.App
set_option autoImplicit false

/-! # The factory of accounts

Builds the provider for a bot profile, given the provider that runs for it now. An account goes on
when the new metadata has its identity; it only works for the new profile from then on. In every other
case a new account is started in the background, and an account that it replaces is closed there, if
there is a runtime for that. Metadata that configures no account changes nothing. -/

namespace Telebridge

/-- A provider that runs: an account, by number, or a provider of another kind. -/
inductive Running where
  | account (id : Nat)
  | other
deriving DecidableEq, Inhabited

/-- The account that runs, if it is one. -/
def Running.account? : Running → Option Nat
  | .account id => some id
  | .other => none

namespace Machine

variable {ε : Type}

/-- Whether an account has the identity of a configuration. -/
def hasIdentity (m : Machine ε) (config : Config) (account : Nat) : Bool :=
  m.accounts[account]?.any fun a => a.config.identity = config.identity

/-- Makes an account work for another profile. -/
def reassign (m : Machine ε) (account : Nat) (profile : ProfileId) : Machine ε :=
  { m with accounts := m.accounts.modify account fun a => { a with profile } }

/-- Starts a task of an account that nobody waits for. Without a runtime to carry it out there is none. -/
def background (m : Machine ε) (runtime : Bool) (account : Nat)
    (p : Program (Except GatewayError Unit)) : Machine ε :=
  if runtime then m.spawn account (App.inBackground p) else m

/-- A new account, started in the background; gives its number. -/
def launch (m : Machine ε) (s : Surroundings ε) (config : Config) (profile : ProfileId)
    (runtime : Bool) : Nat × Machine ε :=
  let account := m.accounts.size
  let m := { m with
    surroundings := s.enroll config m.surroundings
    accounts := m.accounts.push { config, profile } }
  (account, m.background runtime account App.register)

/-- The account for a configuration that works for a profile: the running one, or a new one. -/
def keepOrLaunch (m : Machine ε) (s : Surroundings ε) (config : Config) (profile : ProfileId)
    (running : Option Nat) (runtime : Bool) : Nat × Machine ε :=
  match running with
  | none => m.launch s config profile runtime
  | some account =>
    if m.hasIdentity config account then (account, m.reassign account profile)
    else (m.background runtime account App.close).launch s config profile runtime

/-- The account that works for a profile from now on. The factory may be called outside any runtime. -/
def provide (m : Machine ε) (s : Surroundings ε) (profile : ProfileId) (metadata : Metadata)
    (running : Option Running) (runtime : Bool := true) : Except GatewayError (Nat × Machine ε) :=
  match App.configure metadata with
  | .error e => .error e
  | .ok config => .ok (m.keepOrLaunch s config profile (running.bind Running.account?) runtime)

end Machine

end Telebridge
