import Telebridge.Schema.Entity
set_option autoImplicit false

/-! # The sign-in signal

Who is signed in, and the news of it. Every subscriber owns a mailbox for one event. An event that
finds the mailbox full replaces the one in it, and the subscriber is dropped: a reader that does not
keep up sees the latest transition and then the end. -/

namespace Telebridge

/-- A change of who is signed in. -/
inductive AuthEvent where
  | signedIn (user : User)
  | signedOut
deriving DecidableEq, Inhabited

/-- The event that describes a state. -/
def AuthEvent.ofUser : Option User → AuthEvent
  | some u => .signedIn u
  | none => .signedOut

/-- A subscriber's mailbox: at most one event, and whether more can come. -/
structure Mailbox where
  pending : Option AuthEvent := none
  closed : Bool := false
deriving DecidableEq, Inhabited

/-- What a reader of a mailbox finds. -/
inductive Delivery where
  | event (e : AuthEvent)
  | waiting
  | ended
deriving DecidableEq, Inhabited

/-- Subscriptions are numbered from zero in order of creation. -/
abbrev SubscriptionId := Nat

/-- Who is signed in, and the subscribers. The mailbox of subscription `n` is the `n`-th; it stays
when the subscription is dropped, for its reader to empty. -/
structure AuthSignal where
  user : Option User := none
  subscribers : List SubscriptionId := []
  mailboxes : List Mailbox := []
  signIns : Nat := 0
deriving DecidableEq, Inhabited

namespace AuthSignal

/-- Nobody is signed in and nobody listens. -/
def initial : AuthSignal := {}

/-- Whether somebody is signed in. -/
def isAuthorized (s : AuthSignal) : Bool :=
  s.user.isSome

/-- The mailbox of a subscription. -/
def mailbox (s : AuthSignal) (id : SubscriptionId) : Mailbox :=
  s.mailboxes[id]?.getD { closed := true }

/-- Puts an event into a mailbox, and closes it if there was one already. -/
def offer (event : AuthEvent) (box : Mailbox) : Mailbox :=
  { pending := some event, closed := box.closed || box.pending.isSome }

/-- Tells every subscriber who is signed in, and drops those whose mailbox was full. -/
def broadcast (s : AuthSignal) : AuthSignal :=
  let event := AuthEvent.ofUser s.user
  { s with
    subscribers := s.subscribers.filter fun id => (s.mailbox id).pending.isNone
    mailboxes := s.mailboxes.mapIdx fun id box =>
      if s.subscribers.contains id then offer event box else box }

/-- Signs a user in, or nobody, and tells every subscriber. A sign-in counts as new when nobody or
somebody else was signed in before. -/
def setUser (s : AuthSignal) (user : Option User) : AuthSignal :=
  let isNew := user.isSome && user.map User.id != s.user.map User.id
  { s with user, signIns := if isNew then s.signIns + 1 else s.signIns }.broadcast

/-- Signs the user out if there is one; tells whether there was. -/
def reset (s : AuthSignal) : Bool × AuthSignal :=
  if s.user.isSome then (true, { s with user := none }.broadcast) else (false, s)

/-- A new subscription. If a user is signed in, that is its first event. -/
def subscribe (s : AuthSignal) : SubscriptionId × AuthSignal :=
  let id := s.mailboxes.length
  let box : Mailbox := { pending := s.user.map AuthEvent.signedIn }
  (id, { s with subscribers := s.subscribers ++ [id], mailboxes := s.mailboxes ++ [box] })

/-- Ends a subscription and discards what is pending. -/
def unsubscribe (s : AuthSignal) (id : SubscriptionId) : AuthSignal :=
  { s with
    subscribers := s.subscribers.filter (· != id)
    mailboxes := s.mailboxes.modify id fun _ => { pending := none, closed := true } }

/-- Takes the pending event of a subscription. -/
def take (s : AuthSignal) (id : SubscriptionId) : Option AuthEvent × AuthSignal :=
  ((s.mailbox id).pending,
    { s with mailboxes := s.mailboxes.modify id fun box => { box with pending := none } })

/-- What the reader of a subscription gets: its event, the end, or nothing yet. -/
def receive (s : AuthSignal) (id : SubscriptionId) : Delivery × AuthSignal :=
  let box := s.mailbox id
  match s.take id with
  | (some e, s') => (.event e, s')
  | (none, s') => (if box.closed then .ended else .waiting, s')

end AuthSignal

end Telebridge
