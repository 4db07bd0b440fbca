import Telebridge.Session.DialogSync
set_option autoImplicit false

/-! # Watching who is signed in

While a session runs it follows the sign-in signal: a new sign-in is followed by reading all dialogs,
and before the peers of another sign-in are read, and after a sign-out, the directory forgets
everything. Sign-ins are told apart by their count, because a reader that does not keep up may miss
the sign-out between two of them. Every stage takes one step on the account. -/

namespace Telebridge.Watch

/-- Where the watch stands. `synced` is the sign-in whose dialogs were read last, until it ends. -/
inductive Stage where
  /-- Waiting for an event. -/
  | listening (sub : SubscriptionId) (synced : Option Nat)
  /-- Somebody signed in; which sign-in it is has to be seen. -/
  | signedIn (sub : SubscriptionId) (synced : Option Nat)
  /-- The peers of an earlier sign-in have to be forgotten. -/
  | outdated (sub : SubscriptionId) (signIn : Nat)
  /-- The dialogs of a sign-in are read. -/
  | reading (sub : SubscriptionId) (signIn : Nat)
  /-- Somebody signed out whose peers are known; they have to be forgotten. -/
  | signedOut (sub : SubscriptionId)
  /-- The subscription has ended. -/
  | unsubscribed (synced : Option Nat)
  /-- The session is cancelled. -/
  | leaving (sub : SubscriptionId)
deriving DecidableEq, Inhabited

/-- The stage after an event, or after the end of the events. -/
def afterDelivery (sub : SubscriptionId) (synced : Option Nat) : Option AuthEvent → Stage
  | some (.signedIn _) => .signedIn sub synced
  | some .signedOut => if synced.isSome then .signedOut sub else .listening sub none
  | none => .unsubscribed synced

/-- The stage after the number of sign-ins was read. -/
def afterSignIns (sub : SubscriptionId) (synced : Option Nat) (signIns : Nat) : Stage :=
  match synced with
  | none => .reading sub signIns
  | some n => if n = signIns then .listening sub synced else .outdated sub signIns

/-- Takes the next event of a subscription; none at its end. -/
def nextEvent (sub : SubscriptionId) : Program (Option AuthEvent) :=
  Program.await fun a =>
    match a.signal.receive sub with
    | (.event e, signal) => some (some e, { a with signal })
    | (.ended, signal) => some (none, { a with signal })
    | (.waiting, _) => none

/-- A new subscription. -/
def subscribe : Program SubscriptionId :=
  Program.await fun a =>
    let (sub, signal) := a.signal.subscribe
    some (sub, { a with signal })

/-- Forgets all peers. -/
def purge : Program Unit :=
  Program.update fun a => { a with peers := a.peers.purge }

/-- One step of the watch; it ends when the session is cancelled. -/
def step : Stage → Program (Stage ⊕ Unit)
  | .listening sub synced => do
    match ← Program.unlessCancelled (nextEvent sub) with
    | none => return .inl (.leaving sub)
    | some event => return .inl (afterDelivery sub synced event)
  | .signedIn sub synced => do
    let signIns ← Program.read fun a => a.signal.signIns
    return .inl (afterSignIns sub synced signIns)
  | .outdated sub signIn => do
    purge
    return .inl (.reading sub signIn)
  | .reading sub signIn => do
    DialogSync.run
    return .inl (.listening sub (some signIn))
  | .signedOut sub => do
    purge
    return .inl (.listening sub none)
  | .unsubscribed synced => do
    let sub ← subscribe
    return .inl (.listening sub synced)
  | .leaving sub => do
    Program.update fun a => { a with signal := a.signal.unsubscribe sub }
    return .inr ()

/-- Watches until the session is cancelled. -/
def run : Program Unit := do
  let sub ← subscribe
  Program.iterate (.listening sub none) step

end Telebridge.Watch
