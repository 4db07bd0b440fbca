import Telebridge.Proofs.Account.Snapshots
import Telebridge.Proofs.Inbound.Conduct
import Telebridge.Proofs.Program.Finished
set_option autoImplicit false

/-! # What becomes of a batch

The updates of a batch are treated one after the other, each as if it had come alone (`Handles`), and
`Treats` says what becomes of one. Only a private message that came in is looked at, and only if its
sender can be found (`LooksUp`) and is a person other than the account. For such a message the
conversation is opened once, at most one message is handed over to it (`Delivers`), and in the end the
message is marked as read, whatever happened before. The outcome is the first error of all. -/

namespace Telebridge.Inbound

open Program

/-! ## What becomes of a message -/

/-- The message came in, and it is a private one from the user with the id. -/
def Comes (m : Message) (id : Int64) : Prop :=
  m.out = false ∧ m.peerId = .user id ∧ id ≠ 0

/-- The user with an id among those that the server describes. -/
def userIn? (id : Int64) : Except CallError (List UserEntry) → Option User
  | .ok users => (users.filterMap UserEntry.user?).find? fun u => u.id = id
  | .error _ => none

/-- A sender is looked up: in the directory, or else with a single call. Nobody is found if the call
fails, or if its reply does not describe the sender. -/
inductive LooksUp (d : PeerDirectory) (id : Int64) : List Event → Option User → Prop
  | known {user : User} (h : d.findUser? id = some user) : LooksUp d id [] (some user)
  | asked {hash : Int64} {answer : Except CallError Reply} (h : d.findUser? id = none) :
      LooksUp d id [.answered (.call (.getUsers [.user id hash])) answer]
        (userIn? id (Pipeline.outcome (.getUsers [.user id hash]) answer))

/-- A sticker needs a name for its picture, which takes a random identifier. -/
inductive Names (m : Message) : List Event → String → Prop
  | sticker (h : isStickerMessage m) (id : String) : Names m [.answered .uuid id] (id ++ ".webp")
  | other (h : ¬ isStickerMessage m) : Names m [] ""

/-- What a message brings is fetched. Only a file takes a download, which may fail. -/
inductive Fetches (R : Others) : Content → List Event → Option Envelope.Message → Prop
  | nothing : Fetches R .nothing [] none
  | message (body : Envelope.Message) : Fetches R (.message body) [] (some body)
  | stored {f : FileContent} {file : Envelope.File} {es : List Event} {x y : Account}
      (h : Run R (Download.toStorage f.file f.location) x es (.done (.ok file)) y)
      (hes : ∀ e ∈ es, Download.Downloading e) :
      Fetches R (.file f) es (some (.ofFile file f.caption))
  | failed {f : FileContent} {error : TransferError} {es : List Event} {x y : Account}
      (h : Run R (Download.toStorage f.file f.location) x es (.done (.error error)) y)
      (hes : ∀ e ∈ es, Download.Downloading e) : Fetches R (.file f) es none

/-- The envelope goes to the conversation. Its variables are the id of the message under the sender's id,
and the sender's name if the conversation is new; the rest is what the message brings. -/
structure Addressed (m : Message) (user : User) (channel : Envelope.Channel) (body : Envelope.Message)
    (update : Envelope.Update) : Prop where
  chat : update.chat = channel
  body : update.message = { body with vars := update.message.vars }
  vars : update.message.vars.toList = (Text.showInt64 user.id, Text.showInt32 m.id) ::
    if channel.isNew then [("username", user.username.getD "")] else []

/-- What a message brings is handed to the conversation that was opened for it, if there is anything. -/
inductive HandsOver (R : Others) (m : Message) (user : User) (profile : ProfileId)
    (channel : Envelope.Channel) : List Event → Except InboundError Unit → Prop
  | nothing {ns ds : List Event} {name : String} (hname : Names m ns name)
      (hfetch : Fetches R (content m user.id channel name) ds none) :
      HandsOver R m user profile channel (ns ++ ds) (.ok ())
  | handed {ns ds : List Event} {name : String} {body : Envelope.Message} {update : Envelope.Update}
      (answer : Except GatewayError Unit) (hname : Names m ns name)
      (hfetch : Fetches R (content m user.id channel name) ds (some body))
      (hupdate : Addressed m user channel body update) :
      HandsOver R m user profile channel (ns ++ (ds ++ [.answered (.deliver profile update) answer]))
        (answer.mapError .gateway)

/-- A message is delivered: the conversation with its sender is opened once, and if it is not refused,
what the message brings is handed over to it. -/
inductive Delivers (R : Others) (m : Message) (user : User) (profile : ProfileId) :
    List Event → Except InboundError Unit → Prop
  | refused (e : GatewayError) :
      Delivers R m user profile
        [.answered (.getChannel profile (Text.showInt64 user.id) (contactOf user)) (.error e)]
        (.error (.gateway e))
  | opened (channel : Envelope.Channel) {fs : List Event} {o : Except InboundError Unit}
      (h : HandsOver R m user profile channel fs o) :
      Delivers R m user profile
        (.answered (.getChannel profile (Text.showInt64 user.id) (contactOf user)) (.ok channel) :: fs) o

/-- What becomes of an update, what it shows and what it comes to. -/
inductive Treats (R : Others) (a : Account) (u : Update) :
    List Event → Except InboundError Unit → Prop
  /-- It is not a new message with content. -/
  | other (h : ∀ m pts count, u ≠ .newMessage (.message m) pts count) : Treats R a u [] (.ok ())
  /-- The message did not come in, is not a private one, or has no sender. -/
  | unfit {m : Message} {pts count : Int32} (hu : u = .newMessage (.message m) pts count)
      (h : ∀ id, ¬ Comes m id) : Treats R a u [] (.ok ())
  /-- The sender is not found, or is a bot or the account itself. -/
  | ignored {m : Message} {pts count : Int32} {id : Int64} {x : Account} {es : List Event}
      {found : Option User} (hu : u = .newMessage (.message m) pts count) (hm : Comes m id)
      (hx : R.may a x) (hfound : LooksUp x.peers id es found)
      (h : ∀ user, found = some user → user.bot ∨ user.isSelf) : Treats R a u es (.ok ())
  /-- The message is delivered, and then marked as read. -/
  | delivered {m : Message} {pts count : Int32} {id : Int64} {x : Account} {es fs : List Event}
      {user : User} {profile : ProfileId} {o : Except InboundError Unit} {hash : Int64}
      {answer : Except CallError Reply} (hu : u = .newMessage (.message m) pts count)
      (hm : Comes m id) (hx : R.may a x) (hfound : LooksUp x.peers id es (some user))
      (hid : user.id = id) (hbot : user.bot = false) (hself : user.isSelf = false)
      (hdelivers : Delivers R m user profile fs o) :
      Treats R a u (es ++ fs ++ [.answered (.call (.readHistory (.user id hash) m.id)) answer]) o

/-- Updates are treated in order, each as if it had come alone. -/
inductive Handles (R : Others) :
    List Update → Account → List Event → List (Except InboundError Unit) → Account → Prop
  | nil {a b : Account} (h : R.may a b) : Handles R [] a [] [] b
  | cons {u : Update} {rest : List Update} {a a₁ b : Account} {es fs : List Event}
      {o : Except InboundError Unit} {os : List (Except InboundError Unit)}
      (alone : Run R (handle (.short u 0)) a es (.done o) a₁) (htreats : Treats R a u es o)
      (hrest : Handles R rest a₁ fs os b) : Handles R (u :: rest) a (es ++ fs) (o :: os) b

/-- The first error among some outcomes. -/
def firstError (os : List (Except InboundError Unit)) : Except InboundError Unit :=
  (os.find? fun o => !o.isOk).getD (.ok ())

/-! ## Parts of the program -/

variable {R : Others} {a b : Account} {t : List Event}

theorem sender?_eq_some_iff {m : Message} {id : Int64} : sender? m = some id ↔ Comes m id := by
  unfold sender? Comes
  cases m.peerId with
  | user i =>
    by_cases h : m.out ∨ i = 0
    · simp only [if_pos h, reduceCtorEq, Peer.user.injEq, false_iff]
      rintro ⟨hout, rfl, hi⟩
      rw [hout] at h
      exact h.elim Bool.false_ne_true hi
    · simp only [if_neg h, Option.some.injEq, Peer.user.injEq]
      rw [not_or, Bool.not_eq_true] at h
      constructor
      · rintro rfl
        exact ⟨h.1, rfl, h.2⟩
      · rintro ⟨-, hi, -⟩
        exact hi
  | chat i => simp
  | channel i => simp

/-- Whoever is found has the id that was looked up. -/
theorem LooksUp.id_eq {d : PeerDirectory} {id : Int64} {es : List Event} {user : User}
    (h : LooksUp d id es (some user)) (hd : d.Keyed) : user.id = id := by
  generalize hfound : some user = found at h
  cases h with
  | known hknown =>
    cases hfound
    exact hd id user hknown
  | @asked hash answer _ =>
    unfold userIn? at hfound
    split at hfound
    · simpa using List.find?_some hfound.symm
    · cases hfound

/-- A message that comes from somebody: the sender is looked up, and if there is a person to talk to, the
message is delivered and then marked as read. -/
theorem handleMessage_eq {m : Message} {id : Int64} (h : Comes m id) :
    handleMessage m = findUser id >>= fun
      | none => .done (.ok ())
      | some user =>
        if user.bot || user.isSelf then .done (.ok ())
        else deliver m user >>= fun o => markRead m >>= fun _ => .done o := by
  unfold handleMessage
  rw [sender?_eq_some_iff.2 h]
  rfl

/-- A finished look-up. -/
theorem findUser_done {id : Int64} {found : Option User}
    (h : Run R (findUser id) a t (.done found) b) (ht : ∀ e ∈ t, e.Typed) :
    ∃ x, R.may a x ∧ LooksUp x.peers id t found := by
  obtain ⟨x, hx, h⟩ := Run.read_bind_iff.1 h
  refine ⟨x, hx, ?_⟩
  cases hknown : x.peers.findUser? id with
  | some user =>
    simp only [hknown, pure_eq_done] at h
    obtain ⟨rfl, rfl, -⟩ := Run.done_iff.1 h
    exact .known hknown
  | none =>
    simp only [hknown] at h
    obtain ⟨y, -, h⟩ := Run.read_bind_iff.1 h
    obtain ⟨r, t₁, t₂, a₁, rfl, hcall, hrest⟩ := h.bind_done
    obtain ⟨answer, z, -, rfl, rfl, -, -⟩ := hcall.typed_call_done (by simp [Request.expected])
      fun e he => ht e (List.mem_append_left _ he)
    have hfound : t₂ = [] ∧ userIn? id (Pipeline.outcome (.getUsers
        [.user id ((y.peers.find? ⟨.user, id⟩).getD 0)]) answer) = found := by
      revert hrest
      cases Pipeline.outcome _ answer with
      | ok users =>
        intro hrest
        obtain ⟨rfl, hfound, -⟩ := Run.done_iff.1 hrest
        exact ⟨rfl, hfound⟩
      | error e =>
        intro hrest
        obtain ⟨rfl, hfound, -⟩ := Run.done_iff.1 hrest
        exact ⟨rfl, hfound⟩
    obtain ⟨rfl, rfl⟩ := hfound
    exact .asked hknown

/-- What a message brings has no variables yet. -/
theorem content_vars {m : Message} {senderId : Int64} {channel : Envelope.Channel} {name : String}
    {body : Envelope.Message} (h : content m senderId channel name = .message body) :
    body.vars = Table.empty := by
  unfold content at h
  split at h
  · cases h
    rfl
  · split at h
    · unfold ofPhoto at h
      split at h <;> cases h
    · cases h
      rfl
    · cases h
      rfl
    all_goals cases h

/-- The numeral of an id is not the name of a variable. -/
theorem showInt64_ne_username (id : Int64) : Text.showInt64 id ≠ "username" := by
  intro h
  have hlist : Text.intDigits id.toInt = "username".toList := by
    rw [← h, Text.showInt64, Text.showInt, String.toList_ofList]
  have hletter : 'u' ∈ Text.intDigits id.toInt := by
    rw [hlist]
    decide
  have hdigit (n : Nat) : 'u' ∉ Text.natDigits n := by
    intro hu
    exact absurd (Nat.isDigit_of_mem_toDigits (by decide) (by decide) hu) (by decide)
  unfold Text.intDigits at hletter
  split at hletter
  · rcases List.mem_cons.1 hletter with hu | hu
    · exact absurd hu (by decide)
    · exact hdigit _ hu
  · exact hdigit _ hletter

/-- An envelope made for a message without variables is addressed as it should be. -/
theorem addressed_address {body : Envelope.Message} (hbody : body.vars = Table.empty) (m : Message)
    (user : User) (channel : Envelope.Channel) :
    Addressed m user channel body (address body m (contactOf user) channel) where
  chat := rfl
  body := rfl
  vars := by
    have hne := showInt64_ne_username user.id
    simp only [address, hbody, contactOf]
    cases channel.isNew with
    | false => rfl
    | true =>
      simp only [if_true, Table.toList, Table.insert, Table.empty, putEntry, if_neg hne]

theorem pictureName_done {m : Message} {name : String}
    (h : Run R (pictureName m) a t (.done name) b) : Names m t name := by
  unfold pictureName at h
  split at h
  · next hsticker =>
    obtain ⟨id, rfl, hid⟩ := Run.map_iff.1 h
    obtain ⟨rfl, -⟩ := hid.external_done
    exact .sticker hsticker id
  · next hsticker =>
    obtain ⟨rfl, rfl, -⟩ := Run.done_iff.1 h
    exact .other hsticker

theorem fetch_done {content : Content} {found : Option Envelope.Message}
    (h : Run R (fetch content) a t (.done found) b) (ht : ∀ e ∈ t, e.Typed) :
    Fetches R content t found := by
  cases content with
  | nothing =>
    obtain ⟨rfl, rfl, -⟩ := Run.done_iff.1 h
    exact .nothing
  | message m =>
    obtain ⟨rfl, rfl, -⟩ := Run.done_iff.1 h
    exact .message m
  | file f =>
    obtain ⟨r, t₁, t₂, a₁, rfl, hstorage, hrest⟩ := h.bind_done
    have ht₁ : ∀ e ∈ t₁, Download.Downloading e :=
      (hstorage.conforms (G := .keeping fun _ => True) (fun _ _ _ => id)
        (Download.conforms_toStorage fun _ _ _ _ => id) fun e he =>
          ht e (List.mem_append_left _ he)).2.1
    cases r with
    | error e =>
      obtain ⟨rfl, rfl, -⟩ := Run.done_iff.1 hrest
      rw [List.append_nil]
      exact .failed hstorage ht₁
    | ok file =>
      obtain ⟨rfl, rfl, -⟩ := Run.done_iff.1 hrest
      rw [List.append_nil]
      exact .stored hstorage ht₁

/-- What a message brings has no variables yet when it has been fetched. -/
theorem Fetches.vars_eq {m : Message} {senderId : Int64} {channel : Envelope.Channel} {name : String}
    {es : List Event} {body : Envelope.Message}
    (h : Fetches R (content m senderId channel name) es (some body)) : body.vars = Table.empty := by
  generalize hcontent : content m senderId channel name = found at h
  cases h with
  | message => exact content_vars hcontent
  | stored => rfl

/-- A finished hand-over. -/
theorem handOver_done {m : Message} {user : User} {profile : ProfileId} {channel : Envelope.Channel}
    {o : Except InboundError Unit}
    (h : Run R (handOver m user profile channel) a t (.done o) b) (ht : ∀ e ∈ t, e.Typed) :
    HandsOver R m user profile channel t o := by
  obtain ⟨name, ns, t', a₁, rfl, hname, h⟩ := h.bind_done
  obtain ⟨found, ds, t'', a₂, rfl, hfetch, h⟩ := h.bind_done
  have hname := pictureName_done hname
  have hfetch := fetch_done hfetch fun e he =>
    ht e (List.mem_append_right _ (List.mem_append_left _ he))
  cases found with
  | none =>
    obtain ⟨rfl, rfl, -⟩ := Run.done_iff.1 h
    rw [List.append_nil]
    exact .nothing hname hfetch
  | some body =>
    obtain ⟨answer, u, a₃, -, rfl, hdone⟩ := Run.external_bind_iff.1 h
    have hanswer : u = [] ∧ answer.mapError .gateway = o := by
      cases answer with
      | ok _ =>
        obtain ⟨hu, ho, -⟩ := Run.done_iff.1 hdone
        exact ⟨hu, ho⟩
      | error e =>
        obtain ⟨hu, ho, -⟩ := Run.done_iff.1 hdone
        exact ⟨hu, ho⟩
    obtain ⟨rfl, rfl⟩ := hanswer
    exact .handed answer hname hfetch (addressed_address hfetch.vars_eq m user channel)

/-- A finished delivery. -/
theorem deliver_done {m : Message} {user : User} {o : Except InboundError Unit}
    (h : Run R (deliver m user) a t (.done o) b) (ht : ∀ e ∈ t, e.Typed) :
    ∃ profile, Delivers R m user profile t o := by
  rw [deliver_eq, Run.read_bind_iff] at h
  obtain ⟨x, -, h⟩ := h
  obtain ⟨answer, u, a₁, -, rfl, hrest⟩ := Run.external_bind_iff.1 h
  refine ⟨x.profile, ?_⟩
  cases answer with
  | error e =>
    obtain ⟨rfl, rfl, -⟩ := Run.done_iff.1 hrest
    exact .refused e
  | ok channel =>
    have hhanded := handOver_done hrest fun e he => ht e (List.mem_cons_of_mem _ he)
    exact .opened channel hhanded

/-- A message from a user is marked as read with a single call. -/
theorem markRead_done {m : Message} {id : Int64} (hm : m.peerId = .user id)
    (h : Run R (markRead m) a t (.done ()) b) (ht : ∀ e ∈ t, e.Typed) :
    ∃ hash answer, t = [.answered (.call (.readHistory (.user id hash) m.id)) answer] := by
  obtain ⟨x, -, h⟩ := Run.read_bind_iff.1 h
  obtain ⟨_, -, hcall⟩ := Run.map_iff.1 h
  obtain ⟨answer, y, -, rfl, -, -, -⟩ := hcall.typed_call_done (by simp [Request.expected]) ht
  refine ⟨(x.peers.find? m.peerId.key).getD 0, answer, ?_⟩
  simp only [PeerDirectory.inputPeer, hm]

/-! ## Messages and batches -/

/-- The others file snapshots where they belong. -/
def KeepsSnapshots (R : Others) : Prop :=
  ∀ a b, R.may a b → a.peers.Keyed → b.peers.Keyed

/-- So does the handler, whatever the server tells it. -/
theorem permits_keyed : Permits (.keeping fun a => a.peers.Keyed) :=
  fun request answer _ _ _ h => Pipeline.keyed_learn h request answer

/-- A finished handling of a message. -/
theorem handleMessage_done {u : Update} {m : Message} {pts count : Int32}
    {o : Except InboundError Unit} (hu : u = .newMessage (.message m) pts count)
    (hR : KeepsSnapshots R) (ha : a.peers.Keyed) (h : Run R (handleMessage m) a t (.done o) b)
    (ht : ∀ e ∈ t, e.Typed) : Treats R a u t o := by
  cases hs : sender? m with
  | none =>
    simp only [handleMessage, hs] at h
    obtain ⟨rfl, rfl, -⟩ := Run.done_iff.1 h
    refine .unfit hu fun id hm => ?_
    rw [sender?_eq_some_iff.2 hm] at hs
    cases hs
  | some id =>
    have hm := sender?_eq_some_iff.1 hs
    rw [handleMessage_eq hm] at h
    obtain ⟨found, es, t', a₁, rfl, hfind, hrest⟩ := h.bind_done
    obtain ⟨x, hx, hfound⟩ := findUser_done hfind fun e he => ht e (List.mem_append_left _ he)
    have ht' : ∀ e ∈ t', e.Typed := fun e he => ht e (List.mem_append_right _ he)
    cases found with
    | none =>
      obtain ⟨rfl, rfl, -⟩ := Run.done_iff.1 hrest
      rw [List.append_nil]
      exact .ignored hu hm hx hfound fun user huser => by cases huser
    | some user =>
      by_cases huser : user.bot || user.isSelf
      · simp only [if_pos huser] at hrest
        obtain ⟨rfl, rfl, -⟩ := Run.done_iff.1 hrest
        rw [List.append_nil]
        refine .ignored hu hm hx hfound fun user' huser' => ?_
        cases huser'
        simpa using huser
      · simp only [if_neg huser] at hrest
        obtain ⟨o', fs, t'', a₂, rfl, hdeliver, hrest⟩ := hrest.bind_done
        obtain ⟨_, rfl, hmark⟩ := Run.map_iff.1 hrest
        obtain ⟨profile, hdelivers⟩ := deliver_done hdeliver fun e he =>
          ht' e (List.mem_append_left _ he)
        obtain ⟨hash, answer, rfl⟩ := markRead_done hm.2.1 hmark fun e he =>
          ht' e (List.mem_append_right _ he)
        rw [Bool.or_eq_true, not_or, Bool.not_eq_true, Bool.not_eq_true] at huser
        rw [← List.append_assoc]
        exact .delivered hu hm hx hfound (hfound.id_eq (hR a x hx ha)) huser.1 huser.2 hdelivers

theorem firstFailure_firstError (o : Except InboundError Unit) (os : List (Except InboundError Unit)) :
    firstFailure o (firstError os) = firstError (o :: os) := by
  cases o <;> rfl

/-- A message that comes alone. -/
theorem handle_short (m : Message) (pts count : Int32) :
    handle (.short (.newMessage (.message m) pts count) 0) =
      handleMessage m >>= fun o => .done (firstFailure o (.ok ())) := rfl

/-- A finished handling of some updates. -/
theorem handleMessages_done {updates : List Update} {o : Except InboundError Unit}
    (hR : KeepsSnapshots R) (ha : a.peers.Keyed)
    (h : Run R (handleMessages (updates.filterMap newMessage?)) a t (.done o) b)
    (ht : ∀ e ∈ t, e.Typed) : ∃ os, Handles R updates a t os b ∧ o = firstError os := by
  induction updates generalizing a t o with
  | nil =>
    obtain ⟨rfl, rfl, hb⟩ := Run.done_iff.1 h
    exact ⟨[], .nil hb, rfl⟩
  | cons u rest ih =>
    by_cases hu : ∃ m pts count, u = .newMessage (.message m) pts count
    · obtain ⟨m, pts, count, rfl⟩ := hu
      obtain ⟨o₁, es, t', a₁, rfl, hfirst, hrest⟩ := h.bind_done
      obtain ⟨o₂, rfl, hothers⟩ := Run.map_iff.1 hrest
      have htes : ∀ e ∈ es, e.Typed := fun e he => ht e (List.mem_append_left _ he)
      have ha₁ : a₁.peers.Keyed :=
        (hfirst.conforms (G := .keeping fun a => a.peers.Keyed) hR
          (conforms_handleMessage permits_keyed m) htes).1 ha
      obtain ⟨os, hos, rfl⟩ := ih ha₁ hothers fun e he => ht e (List.mem_append_right _ he)
      have hfailure : firstFailure o₁ (.ok ()) = o₁ := by cases o₁ <;> rfl
      have halone : Run R (handle (.short (.newMessage (.message m) pts count) 0)) a es (.done o₁)
          a₁ := by
        rw [handle_short]
        exact Run.map_iff.2 ⟨o₁, hfailure, hfirst⟩
      refine ⟨o₁ :: os, .cons halone (handleMessage_done rfl hR ha hfirst htes) hos, ?_⟩
      exact firstFailure_firstError o₁ os
    · have hnone : newMessage? u = none := by
        unfold newMessage?
        split
        · next m pts count => exact absurd ⟨m, pts, count, rfl⟩ hu
        · rfl
      rw [List.filterMap_cons_none hnone] at h
      obtain ⟨os, hos, rfl⟩ := ih ha h ht
      have halone : Run R (handle (.short u 0)) a [] (.done (.ok ())) a := by
        simp only [handle, Updates.toList, List.filterMap_cons_none hnone]
        exact .refl _ a
      have hother := Treats.other (R := R) (a := a) fun m pts count h => hu ⟨m, pts, count, h⟩
      exact ⟨.ok () :: os, .cons halone hother hos, rfl⟩

/-- The updates of a batch are treated in order, each as if it had come alone and whatever becomes of the
others, and the outcome is the first error: so it is in every finished run in which calls are answered
with what they promise. And handling a batch comes to its end, unless a download goes on for ever. -/
theorem handle_treats_each (R : Others) (hR : KeepsSnapshots R) (updates : Updates) (a : Account)
    (ha : a.peers.Keyed) :
    (∀ t o b, Run R (handle updates) a t (.done o) b → (∀ e ∈ t, e.Typed) →
      ∃ os, Handles R updates.toList a t os b ∧ o = firstError os) ∧
    ∀ bound env, Download.Responsive bound env → ∀ t,
      Returns R env (fun o t' b => ∃ es os, t' = t ++ es ∧ Handles R updates.toList a es os b ∧
        o = firstError os) (handle updates) t a := by
  have hfinished {t : List Event} {o : Except InboundError Unit} {b : Account}
      (h : Run R (handle updates) a t (.done o) b) (ht : ∀ e ∈ t, e.Typed) :
      ∃ os, Handles R updates.toList a t os b ∧ o = firstError os :=
    handleMessages_done hR ha h ht
  refine ⟨fun t o b => hfinished, fun bound env henv t => ?_⟩
  refine (handle_ends henv updates).by_run.mono ?_
  rintro o _ b ⟨es, rfl, hrun, hallowed⟩
  obtain ⟨os, hos, ho⟩ := hfinished hrun (hallowed.forall henv.typed)
  exact ⟨es, os, rfl, hos, ho⟩

/-! ## A message that is refused -/

/-- Somebody the account knows. -/
def partner : User := { id := 5, accessHash := some 50 }

/-- An account that knows one user. -/
def acquainted : Account :=
  { config := {}, profile := 0, peers := PeerDirectory.empty.apply [.user partner] [] }

/-- A message from this user. -/
def hello : Message := ⟨false, 7, none, .user 5, 0, "hi", none⟩

/-- What shows when the conversation is refused and the message marked as read all the same. -/
def refusal (e : GatewayError) : List Event :=
  [.answered (.getChannel 0 "5" (contactOf partner)) (.error e),
    .answered (.call (.readHistory (.user 5 50) 7)) (.error .dropped)]

theorem hello_marked_run :
    Run Others.nobody (markRead hello) acquainted
      [.answered (.call (.readHistory (.user 5 50) 7)) (.error .dropped)] (.done ()) acquainted := by
  have hexchange : Pipeline.Exchange (.readHistory (.user 5 50) 7) (.error .dropped)
      [.answered (.call (.readHistory (.user 5 50) 7)) (.error .dropped)] := rfl
  exact Run.read_bind_iff.2
    ⟨acquainted, rfl, Run.map_iff.2 ⟨_, rfl, Run.of_exchange acquainted hexchange⟩⟩

/-- The sender of the message is known; it is delivered somehow, and then it is marked as read. -/
theorem hello_run {t : List Event} {o : Except InboundError Unit}
    (hdeliver : Run Others.nobody (deliver hello partner) acquainted t (.done o) acquainted) :
    Run Others.nobody (handleMessage hello) acquainted
      (t ++ [.answered (.call (.readHistory (.user 5 50) 7)) (.error .dropped)])
      (.done o) acquainted := by
  have hfind : Run Others.nobody (findUser 5) acquainted [] (.done (some partner)) acquainted :=
    Run.read_bind_iff.2 ⟨acquainted, rfl, .refl _ _⟩
  have hcomes : Comes hello 5 := ⟨rfl, rfl, by decide⟩
  rw [handleMessage_eq hcomes]
  exact hfind.bind (hdeliver.bind (Run.map_iff.2 ⟨(), rfl, hello_marked_run⟩))

theorem refusal_run (e : GatewayError) :
    Run Others.nobody (handle (.short (.newMessage (.message hello) 1 1) 0)) acquainted (refusal e)
      (.done (.error (.gateway e))) acquainted := by
  have hdeliver : Run Others.nobody (deliver hello partner) acquainted
      [.answered (.getChannel 0 "5" (contactOf partner)) (.error e)]
      (.done (.error (.gateway e))) acquainted := by
    rw [deliver_eq]
    refine Run.read_bind_iff.2 ⟨acquainted, rfl, Run.external_bind_iff.2 ?_⟩
    exact ⟨.error e, [], acquainted, rfl, rfl, .refl _ _⟩
  rw [handle_short]
  exact Run.map_iff.2 ⟨_, rfl, hello_run hdeliver⟩

/-- The message is treated though its conversation is refused, and the refusal is the outcome. -/
theorem handle_treats_each_refused :
    let e : GatewayError := default
    let batch : Updates := .short (.newMessage (.message hello) 1 1) 0
    KeepsSnapshots Others.nobody ∧ acquainted.peers.Keyed ∧ (∀ f ∈ refusal e, f.Typed) ∧
      Download.Responsive 0 calm ∧
      (∃ os, Handles Others.nobody batch.toList acquainted (refusal e) os acquainted ∧
        .error (.gateway e) = firstError os) ∧
      Returns Others.nobody calm (fun _ _ _ => True) (handle batch) [] acquainted := by
  intro e batch
  have hR : KeepsSnapshots Others.nobody := by
    rintro a _ rfl ha
    exact ha
  have ha : acquainted.peers.Keyed := PeerDirectory.keyed_empty.apply _ _
  have ht : ∀ f ∈ refusal e, f.Typed := by
    intro f hf
    simp only [refusal, List.mem_cons, List.not_mem_nil, or_false] at hf
    rcases hf with rfl | rfl <;> trivial
  obtain ⟨hfinished, hends⟩ := handle_treats_each Others.nobody hR batch acquainted ha
  refine ⟨hR, ha, ht, calm_responsive, hfinished _ _ _ (refusal_run e) ht, ?_⟩
  exact (hends 0 calm calm_responsive []).mono fun _ _ _ _ => trivial

end Telebridge.Inbound
