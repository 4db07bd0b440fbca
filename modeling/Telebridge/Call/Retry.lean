import Telebridge.Call.CallError
set_option autoImplicit false

/-! # Retrying calls

What to do after the `n`-th failure of a call: give up, or wait and send the same request again. All
durations are in milliseconds. -/

namespace Telebridge

/-- When a failed call is sent again. -/
inductive RetryPolicy where
  /-- Give up at once. -/
  | never
  /-- At most `n` calls in all; waits as long as the server asks. -/
  | attempts (n : Nat)
  /-- At most `maxRetries` more calls; longer flood waits than `threshold` are not sat out, and
  timeouts and failures on the way are retried after `ioDelay`, if there is one. -/
  | autoSleep (threshold : Nat) (ioDelay : Option Nat) (maxRetries : Nat)
deriving DecidableEq

namespace RetryPolicy

/-- Three more calls, flood waits of up to a minute, a second after other failures. -/
def standard : RetryPolicy :=
  .autoSleep 60000 (some 1000) 3

instance : Inhabited RetryPolicy := ⟨standard⟩

/-- The delay before the next call after `failures` failures, the last with error `e`; none to give
up. -/
def delay? (policy : RetryPolicy) (failures : Nat) (e : CallError) : Option Nat :=
  match policy with
  | .never => none
  | .attempts n =>
    if n ≤ failures then none
    else
      match e.floodWait? with
      | some seconds => some (seconds * 1000)
      | none => if e.isTimeout then some 1000 else none
  | .autoSleep threshold ioDelay maxRetries =>
    if maxRetries < failures then none
    else
      match e.floodWait? with
      | some seconds => if seconds ≤ threshold / 1000 then some (seconds * 1000) else none
      | none => if e.isTimeout || e.isIo then ioDelay else none

/-- The failures are counted in 32 bits; the count stays at its highest value. -/
def nextFailure (failures : Nat) : Nat :=
  min (failures + 1) (UInt32.size - 1)

end RetryPolicy

end Telebridge
