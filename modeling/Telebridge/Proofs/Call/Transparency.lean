import Telebridge.Proofs.Call.Pipeline
import Telebridge.Proofs.Program.Finished
import Telebridge.Proofs.Program.Handled
set_option autoImplicit false

/-! # The pipeline is transparent

The caller gets the answer of the server as it came, whatever happens on the way: `invoke_transparent`
characterises the finished runs of a call, with any handler in the place of the batches that it hands
over. An error that revokes the authorization signs the account out. A reply fills the directory with
the users and chats that it lists (`Reply.listed`), with the full description that it is about
(`Reply.described?`), and, if a phone number was asked for, with its peer (`phoneIndex?`). -/

namespace Telebridge

/-! ## What replies carry -/

namespace Reply

/-- The users and chats that a reply lists. -/
def listed : Reply → List UserEntry × List ChatEntry
  | ⟨.users, users⟩ => (users, [])
  | ⟨.userFull, (full : UserFullReply)⟩ => (full.users, full.chats)
  | ⟨.chatFull, (full : ChatFullReply)⟩ => (full.users, full.chats)
  | ⟨.resolvedPeer, (resolved : ResolvedPeer)⟩ => (resolved.users, resolved.chats)
  | ⟨.dialogs, (.full list : DialogPage)⟩ => (list.users, list.chats)
  | ⟨.dialogs, (.slice _ list : DialogPage)⟩ => (list.users, list.chats)
  | ⟨.peerDialogs, (list : DialogList)⟩ => (list.users, list.chats)
  | ⟨.updates, (.combined _ users chats _ _ _ : Updates)⟩ => (users, chats)
  | ⟨.updates, (.batch _ users chats _ _ : Updates)⟩ => (users, chats)
  | ⟨.difference, (.difference missed : Difference)⟩ => (missed.users, missed.chats)
  | ⟨.difference, (.slice missed : Difference)⟩ => (missed.users, missed.chats)
  | ⟨.dialogs, (.notModified _ : DialogPage)⟩ | ⟨.difference, (.empty _ _ : Difference)⟩
  | ⟨.difference, (.tooLong _ : Difference)⟩ | ⟨.updates, (.tooLong : Updates)⟩
  | ⟨.updates, (.short _ _ : Updates)⟩ | ⟨.updates, (.shortSentMessage _ _ _ _ : Updates)⟩
  | ⟨.bool, _⟩ | ⟨.sentCode, _⟩ | ⟨.authorization, _⟩ | ⟨.loggedOut, _⟩ | ⟨.password, _⟩
  | ⟨.affectedMessages, _⟩ | ⟨.file, _⟩ | ⟨.state, _⟩ => ([], [])

/-- The full description that a reply is about. -/
def described? : Reply → Option (UserFull ⊕ FullChat)
  | ⟨.userFull, (full : UserFullReply)⟩ => some (.inl full.fullUser)
  | ⟨.chatFull, (full : ChatFullReply)⟩ => some (.inr full.fullChat)
  | _ => none

/-- The batch of updates that a reply is. -/
def batch? : Reply → Option Updates
  | ⟨.updates, (updates : Updates)⟩ => some updates
  | _ => none

theorem value?_updates (reply : Reply) : reply.value? .updates = reply.batch? := by
  obtain ⟨kind, value⟩ := reply
  cases kind <;> rfl

end Reply

namespace PeerDirectory

/-- Keeps a full description. -/
def describe (d : PeerDirectory) : UserFull ⊕ FullChat → PeerDirectory
  | .inl user => d.saveUserFulls [user]
  | .inr chat => d.applyChatFull chat

end PeerDirectory

namespace Pipeline

open Program

/-- The entry that a reply makes in the index of phone numbers: only for a request that has digits. -/
def phoneIndex? (request : Request) : Reply → Option (String × PeerKey)
  | ⟨.resolvedPeer, (resolved : ResolvedPeer)⟩ =>
    match request with
    | .resolvePhone phone =>
      if phone.toList.any Char.isDigit then some (Phone.digits phone, resolved.peer.key) else none
    | _ => none
  | _ => none

/-- The directory with everything that a reply brings. -/
def populated (request : Request) (reply : Reply) (d : PeerDirectory) : PeerDirectory :=
  let listed := d.apply reply.listed.1 reply.listed.2
  let described := reply.described?.elim listed listed.describe
  (phoneIndex? request reply).elim described fun entry => described.savePhone entry.1 entry.2

/-- The error says that the authorization of the session is gone. -/
def Revokes (e : CallError) : Prop :=
  ∃ rpc, e = .rpc rpc ∧ rpc.code = 401 ∧ rpc.name ≠ "SESSION_PASSWORD_NEEDED"

theorem revokes_iff (e : CallError) : Revokes e ↔ e.isUnauthorized = true := by
  cases e with
  | rpc rpc => simp [Revokes, CallError.isUnauthorized, CallError.rpc?, RpcError.isUnauthorized]
  | _ => simp [Revokes, CallError.isUnauthorized, CallError.rpc?]

instance (e : CallError) : Decidable (Revokes e) :=
  decidable_of_iff _ (revokes_iff e).symm

theorem isEmpty_digits (phone : String) :
    (Phone.digits phone).isEmpty = !phone.toList.any Char.isDigit := by
  rw [Bool.eq_iff_iff, String.isEmpty_iff, Phone.digits, ← String.toList_inj, String.toList_ofList]
  simp

theorem indexPhone_eq (request : Request) (resolved : ResolvedPeer) (d : PeerDirectory) :
    indexPhone request resolved.peer d =
      (phoneIndex? request ⟨.resolvedPeer, resolved⟩).elim d fun entry => d.savePhone entry.1 entry.2 := by
  cases request with
  | resolvePhone phone =>
    simp only [indexPhone, phoneIndex?, isEmpty_digits]
    by_cases h : phone.toList.any Char.isDigit <;> simp [h]
  | _ => rfl

/-- Whatever the kind of a reply, the directory gets everything that the reply brings. -/
theorem absorb_eq_populated (request : Request) (d : PeerDirectory) :
    ∀ reply, absorb request reply d = populated request reply d
  | ⟨.resolvedPeer, (resolved : ResolvedPeer)⟩ => indexPhone_eq request resolved _
  | ⟨.dialogs, (page : DialogPage)⟩ => by cases page <;> rfl
  | ⟨.updates, (updates : Updates)⟩ => by cases updates <;> rfl
  | ⟨.difference, (difference : Difference)⟩ => by cases difference <;> rfl
  | ⟨.users, _⟩ | ⟨.userFull, _⟩ | ⟨.chatFull, _⟩ | ⟨.peerDialogs, _⟩ | ⟨.bool, _⟩ | ⟨.sentCode, _⟩
  | ⟨.authorization, _⟩ | ⟨.loggedOut, _⟩ | ⟨.password, _⟩ | ⟨.affectedMessages, _⟩ | ⟨.file, _⟩
  | ⟨.state, _⟩ => rfl

/-! ## Runs of a call with its updates handled -/

variable {R : Others} {h : Updates → Program (Except InboundError Unit)} {request : Request}

/-- A call asks the server, settles the answer, and gives it as it came. -/
theorem invoke_eq (request : Request) :
    invoke request = external (.call request) >>= fun r => settle request r >>= fun _ => .done r := by
  unfold invoke
  congr 1
  funext r
  cases r with
  | error e =>
    simp only [settle]
    split <;> rfl
  | ok reply =>
    simp only [settle, bind_eq_bind, bind_assoc]
    congr 1
    funext _
    cases reply.value? .updates <;> rfl

/-- With a handler in place, the handler settles the updates in the answer. -/
theorem invoke_handled (request : Request) :
    (invoke request).handled h = external (.call request) >>= fun r =>
      (settle request r).handled h >>= fun _ => .done r := by
  rw [invoke_eq, bind_eq_bind, handled_bind]
  congr 1
  funext r
  rw [bind_eq_bind, handled_bind]
  rfl

theorem settle_error_handled (e : CallError) :
    (settle request (.error e)).handled h =
      if Revokes e then update (fun a => { a with signal := a.signal.reset.2 }) >>= .done
      else .done () := by
  simp only [settle, revokes_iff]
  split <;> rfl

theorem settle_ok_handled (reply : Reply) :
    (settle request (.ok reply)).handled h =
      update (fun a => { a with peers := populated request reply a.peers }) >>= fun _ =>
        (match reply.batch? with
          | some updates => h updates >>= fun _ => .done ()
          | none => .done () : Program Unit) := by
  simp only [settle, ← absorb_eq_populated, ← Reply.value?_updates]
  cases reply.value? .updates <;> rfl

/-- What becomes of an account when an answer is settled and `h` handles the updates in it, with what
this shows. -/
def Settles (R : Others) (h : Updates → Program (Except InboundError Unit)) (request : Request)
    (r : Except CallError Reply) (a : Account) (u : List Event) (b : Account) : Prop :=
  match r with
  | .error e =>
    u = [] ∧ R.may { a with signal := if Revokes e then a.signal.reset.2 else a.signal } b
  | .ok reply =>
    match reply.batch? with
    | none => u = [] ∧ R.may { a with peers := populated request reply a.peers } b
    | some updates =>
      ∃ o, Run R (h updates) { a with peers := populated request reply a.peers } u (.done o) b

/-- Settling an answer with `h` in place: the others, and then what `Settles` says. -/
theorem settle_handled_iff {r : Except CallError Reply} {o : Unit} {a b : Account}
    {u : List Event} : Run R ((settle request r).handled h) a u (.done o) b ↔
      ∃ a₁, R.may a a₁ ∧ Settles R h request r a₁ u b := by
  cases r with
  | error e =>
    rw [settle_error_handled]
    simp only [Settles]
    by_cases he : Revokes e
    · simp only [if_pos he, Run.update_bind_iff, Run.done_iff, true_and]
    · simp only [if_neg he, Run.done_iff, true_and]
      constructor
      · rintro ⟨rfl, hb⟩
        exact ⟨b, hb, rfl, R.refl b⟩
      · rintro ⟨a₁, ha₁, rfl, hb⟩
        exact ⟨rfl, R.trans ha₁ hb⟩
  | ok reply =>
    rw [settle_ok_handled]
    simp only [Settles, Run.update_bind_iff]
    cases reply.batch? with
    | none => simp only [Run.done_iff, true_and]
    | some updates => simp only [Run.map_iff, true_and]

/-- A call shows the answer of the server first and gives just this answer, value or error. An error
leaves the directory alone and hands nothing over; it signs the account out before the caller gets it,
if it says that the authorization is gone, and does nothing else to it. A reply leaves the signal alone
and brings the directory everything that it carries; the updates in it are handled after that, and only
what their handler does, or what others do, is done besides. -/
theorem invoke_transparent (R : Others) (h : Updates → Program (Except InboundError Unit))
    (request : Request) (a b : Account) (t : List Event) (r : Except CallError Reply) :
    Run R ((invoke request).handled h) a t (.done r) b ↔
      ∃ a₁ u, R.may a a₁ ∧ t = .answered (.call request) r :: u ∧ Settles R h request r a₁ u b := by
  simp only [invoke_handled, Run.external_bind_iff, Run.map_iff, settle_handled_iff]
  constructor
  · rintro ⟨r', u, a₁, ha₁, rfl, -, rfl, a₂, ha₂, hsettles⟩
    exact ⟨a₂, u, R.trans ha₁ ha₂, rfl, hsettles⟩
  · rintro ⟨a₁, u, ha₁, rfl, hsettles⟩
    exact ⟨r, u, a₁, ha₁, rfl, (), rfl, a₁, R.refl a₁, hsettles⟩

end Pipeline

end Telebridge
