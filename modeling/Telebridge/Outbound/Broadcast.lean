import Telebridge.Outbound.Resolve
set_option autoImplicit false

/-! # Broadcasts

A text for many peers. All peers are resolved before the first message is sent; a peer that was
resolved before is a duplicate. What fails is reported for the peer as it was given, in the order of
the request. -/

namespace Telebridge.Broadcast

/-- A peer of the request, by its place there. -/
structure Failure where
  index : Nat
  reason : Envelope.FailureReason
deriving DecidableEq, Inhabited

/-- An addressee, by its place in the request. -/
structure Target where
  index : Nat
  peer : InputPeer
deriving DecidableEq, Inhabited

/-- The outcome of resolving: the failures and the targets, each in the order of the request. -/
structure Resolution where
  failures : List Failure := []
  targets : List Target := []
deriving DecidableEq, Inhabited

/-- Resolves peers in order, the first of them at place `index`. -/
def resolveAll (r : Resolution) (index : Nat) : List String → Program Resolution
  | [] => return r
  | peer :: rest => do
    match ← Resolve.peer peer with
    | .ok input =>
      if r.targets.any fun t => t.peer = input then
        let failure := ⟨index, ResolveError.reason (.duplicate peer)⟩
        resolveAll { r with failures := r.failures ++ [failure] } (index + 1) rest
      else
        resolveAll { r with targets := r.targets ++ [⟨index, input⟩] } (index + 1) rest
    | .error e =>
      resolveAll { r with failures := r.failures ++ [⟨index, e.reason⟩] } (index + 1) rest

/-- Sends the text to targets in order; gives the failures. -/
def sendAll (text : String) : List Target → Program (List Failure)
  | [] => return []
  | target :: rest => do
    let randomId ← Program.external .randomId
    match ← Pipeline.callPersistently
        (.sendMessage { peer := target.peer, message := text, randomId }) with
    | .ok _ => sendAll text rest
    | .error e => return ⟨target.index, e.reason⟩ :: (← sendAll text rest)

/-- The report on a request: one entry for each failure, in the order of the request. -/
def report (peers : List String) (failures : List Failure) : Envelope.BroadcastResponse :=
  { failures := (failures.mergeSort fun a b => a.index ≤ b.index).map fun f =>
      ⟨peers[f.index]?.getD "", f.reason⟩ }

/-- Sends a text to every peer of a request. Only an account that is signed out fails as a whole. -/
def run (request : Envelope.BroadcastRequest) :
    Program (Except GatewayError Envelope.BroadcastResponse) := do
  if ← Program.read fun a => a.signal.isAuthorized then
    let r ← resolveAll {} 0 request.peers
    let failures ← sendAll request.text r.targets
    return .ok (report request.peers (r.failures ++ failures))
  else
    return .error (.badGateway "chat.broadcast.telegram.unauthorized"
      "telegram: account is not authorized")

end Telebridge.Broadcast
