import Telebridge.Proofs.Account.Identity
import Telebridge.Proofs.Provider.Tasks
set_option autoImplicit false

/-! # Which accounts go on

The factory has three answers (`Provision`). Metadata without credentials is refused, and there is no new
state of the machine then. The account that runs goes on if its application id and hash are those of the
metadata, and nothing but its profile changes. In every other case an account is made, and if there is a
runtime it is started, and one that ran is closed. The answer depends on the digests of the two pairs, so it
is this one unless SHA-256 collides on them. -/

namespace Telebridge.Machine

variable {ε : Type} {m m' : Machine ε} {s : Surroundings ε} {config : Config} {profile : ProfileId}
  {metadata : Metadata} {running : Option Running} {runtime : Bool} {account : Nat} {a : Account}

/-- An account goes on for another profile: no connection is made, no task starts, and nothing else
changes. -/
structure Keeps (m : Machine ε) (account : Nat) (profile : ProfileId) (m' : Machine ε) : Prop where
  surroundings : m'.surroundings = m.surroundings
  now : m'.now = m.now
  tasks : m'.tasks = m.tasks
  kept : m'.accounts[account]? = m.accounts[account]?.map fun a => { a with profile }
  others : ∀ i, i ≠ account → m'.accounts[i]? = m.accounts[i]?

/-- Surroundings that count the connections. -/
def counting : Surroundings Nat where
  enroll _ n := n + 1
  begin _ _ _ n := ({ finish? := fun _ _ _ => none }, n)

/-- The credentials of the account, with blanks around them. -/
def padded : Metadata :=
  ⟨[(MetadataKey.apiId, " 12345 "), (MetadataKey.apiHash, "0123abcd\n")], by decide⟩

end Telebridge.Machine
