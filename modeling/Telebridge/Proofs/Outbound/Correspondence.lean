import Telebridge.Outbound.Notify
import Telebridge.Proofs.Account.DirectoryLog
import Telebridge.Proofs.Call.Persistence
import Telebridge.Proofs.Inbound.Handler
import Telebridge.Proofs.Outbound.Duplicates
import Telebridge.Proofs.Text.Numeral
set_option autoImplicit false

/-! # Replies reach the sender

An incoming message opens a conversation under the sender's id, written as a numeral, and a notification
is sent to the user whose id the conversation has. Both sides take the access hash from the directory: if
it was there when the message came in, or came with the look-up of the sender, then the reply and the read
mark go to the same peer, and nobody has to be looked up again (`reply_reaches_sender`). -/

namespace Telebridge.Correspondence

open Program Pipeline Inbound

/-! ## The access hash of a user -/

/-- The directory of the account has this access hash for the user. -/
def Knows (id hash : Int64) (a : Account) : Prop :=
  a.peers.find? ⟨.user, id⟩ = some hash

/-- No listed user with the id carries another access hash. -/
def KeepsTo (id hash : Int64) (users : List UserEntry) : Prop :=
  ∀ u, UserEntry.user u ∈ users → u.id = id → ∀ h, u.accessHash = some h → h = hash

/-- A listed user has the id and carries the access hash, and none after it carries another one. -/
def Lists (id hash : Int64) (users : List UserEntry) : Prop :=
  ∃ before u after, users = before ++ .user u :: after ∧ u.id = id ∧ u.accessHash = some hash ∧
    KeepsTo id hash after

variable {id hash : Int64}

theorem find?_apply_of_keepsTo {d : PeerDirectory} {users : List UserEntry} {chats : List ChatEntry}
    (hd : d.find? ⟨.user, id⟩ = some hash) (h : KeepsTo id hash users) :
    (d.apply users chats).find? ⟨.user, id⟩ = some hash := by
  have honly : ∀ value, .hash ⟨.user, id⟩ value ∈ PeerDirectory.batchEntries users chats →
      value = hash := by
    intro value hvalue
    obtain ⟨u, hu, hid, hcarried⟩ := PeerDirectory.hash_user_mem_batchEntries.1 hvalue
    exact h u hu hid value hcarried
  by_cases hlisted : .hash ⟨.user, id⟩ hash ∈ PeerDirectory.batchEntries users chats
  · exact PeerDirectory.find?_apply_of_mem hlisted honly
  · rw [PeerDirectory.find?_apply_of_forall_notMem, hd]
    exact fun value hvalue => hlisted (honly value hvalue ▸ hvalue)

/-- What a batch lists last for a user is known afterwards. -/
theorem find?_apply_of_lists {d : PeerDirectory} {users : List UserEntry} {chats : List ChatEntry}
    (h : Lists id hash users) : (d.apply users chats).find? ⟨.user, id⟩ = some hash := by
  obtain ⟨before, u, after, rfl, rfl, hcarried, hafter⟩ := h
  rw [← List.nil_append chats]
  rw [← (PeerDirectory.agree_apply_apply d before (.user u :: after) [] chats).hashes]
  have hone : (d.apply before []).apply (.user u :: after) chats =
      ((d.apply before []).applyUser (.user u)).apply after chats := rfl
  rw [hone]
  refine find?_apply_of_keepsTo ?_ hafter
  simp [PeerDirectory.applyUser, hcarried, PeerDirectory.find?, PeerDirectory.save,
    PeerDirectory.saveUsers]

/-- Of what a reply brings, only the lists of users and chats matter for the access hashes. -/
theorem find?_populated (request : Request) (reply : Reply) (d : PeerDirectory) (key : PeerKey) :
    (Pipeline.populated request reply d).find? key =
      (d.apply reply.listed.1 reply.listed.2).find? key := by
  have hdescribed : ((reply.described?.elim (d.apply reply.listed.1 reply.listed.2)
      (d.apply reply.listed.1 reply.listed.2).describe)).find? key =
      (d.apply reply.listed.1 reply.listed.2).find? key := by
    cases reply.described? with
    | none => rfl
    | some full => rcases full with user | (chat | channel) <;> rfl
  rw [← hdescribed]
  unfold Pipeline.populated
  cases Pipeline.phoneIndex? request reply <;> rfl

/-- A reply that lists the user makes the access hash known. -/
theorem knows_learn_of_lists {request : Request} {reply : Reply} {a : Account}
    (h : Lists id hash reply.listed.1) : Knows id hash (Pipeline.learn request (.ok reply) a) := by
  show (Pipeline.absorb request reply a.peers).find? _ = _
  rw [Pipeline.absorb_eq_populated, find?_populated]
  exact find?_apply_of_lists h

/-! ## What shows while a message is handled -/

/-- The id under which a conversation was opened, and the conversation, if the event is about that. -/
def opened? : Event → Option (String × Envelope.Channel)
  | .answered (.getChannel _ chatId _) answer => answer.toOption.map (chatId, ·)
  | _ => none

/-- What is handed to a conversation, if the event is about that. -/
def delivered? : Event → Option Envelope.Update
  | .answered (.deliver _ update) _ => some update
  | _ => none

/-- No reply leaves another access hash of the user behind, and a conversation has the id under which it
was opened. -/
structure Regular (id hash : Int64) (e : Event) : Prop where
  keeps : ∀ c, call? e = some c → ∀ reply, c.2 = .ok reply →
    KeepsTo id hash reply.listed.1 ∨ Lists id hash reply.listed.1
  echoes : ∀ o, opened? e = some o → o.2.chatId = o.1

/-- A regular answer does not take the access hash away. -/
theorem Knows.learn {request : Request} {answer : Except CallError Reply} {a : Account}
    (h : Knows id hash a) (he : Regular id hash (.answered (.call request) answer)) :
    Knows id hash (Pipeline.learn request answer a) := by
  cases answer with
  | error e =>
    simp only [Pipeline.learn]
    split <;> exact h
  | ok reply =>
    show (Pipeline.absorb request reply a.peers).find? _ = _
    rw [Pipeline.absorb_eq_populated, find?_populated]
    rcases he.keeps _ rfl reply rfl with hkeeps | hlists
    · exact find?_apply_of_keepsTo h hkeeps
    · exact find?_apply_of_lists hlists

/-- What is delivered goes to the conversation with this id, and nothing is asked for but files. -/
structure Forwards (chatId : String) (e : Event) : Prop where
  deliver : ∀ update, delivered? e = some update → update.chat.chatId = chatId
  call : ∀ c, call? e = some c → ∃ query, c.1 = .getFile query

/-- Neither a delivery nor a call. -/
theorem Forwards.of_none {chatId : String} {e : Event} (hdeliver : delivered? e = none)
    (hcall : call? e = none) : Forwards chatId e where
  deliver update h := by
    rw [hdeliver] at h
    cases h
  call c h := by
    rw [hcall] at h
    cases h

theorem forwards_of_downloading {chatId : String} {e : Event} (h : Download.Downloading e) :
    Forwards chatId e := by
  cases h with
  | part query answer =>
    refine ⟨fun update h => ?_, fun c hc => ?_⟩
    · cases h
    · cases hc
      exact ⟨query, rfl⟩
  | _ => exact .of_none rfl rfl

variable {R : Others} {chatId : String}

/-- A download does not take the access hash away. -/
theorem admits_download (hkeep : ∀ a b, R.may a b → Knows id hash a → Knows id hash b) :
    Download.Admits R (.keeping (Knows id hash)) (Regular id hash) (Forwards chatId) where
  shows _ he := forwards_of_downloading he
  part hf := conforms_call_bind hkeep (fun _ _ => .of_none rfl rfl) fun answer hanswer =>
    ⟨forwards_of_downloading (.part _ answer), fun _ ha => ha.learn hanswer, hf _⟩

/-- A message is delivered to the conversation that has the sender's id. -/
theorem conforms_delivery (hkeep : ∀ a b, R.may a b → Knows id hash a → Knows id hash b) (m : Message)
    (user : User) :
    (deliver m user).Conforms R (.keeping (Knows id hash)) (Regular id hash)
      (Forwards (Text.showInt64 user.id)) := by
  refine conforms_deliver (admits_download hkeep) m user (fun _ _ => .of_none rfl rfl) ?_
  rintro profile channel hanswer update answer rfl
  refine ⟨fun update' h => ?_, fun c hc => ?_⟩
  · cases h
    exact hanswer.echoes _ rfl
  · cases hc

/-! ## The sender is looked up -/

/-- A request for the description of the user. -/
def LooksFor (id : Int64) (request : Request) : Prop :=
  ∃ hash, request = .getUsers [.user id hash]

/-- Nothing is asked for but the description of the user. -/
structure Seeks (id : Int64) (e : Event) : Prop where
  deliver : delivered? e = none
  call : ∀ c, call? e = some c → LooksFor id c.1

theorem conforms_findUser :
    (findUser id).Conforms R (.keeping fun _ => True) (fun _ => True) (Seeks id) := by
  refine conforms_read.bind fun found => ?_
  cases found with
  | some user => exact conforms_done _
  | none =>
    refine conforms_read.bind fun hash => ?_
    refine conforms_call_bind (fun _ _ _ _ => trivial) (fun _ _ => ⟨rfl, fun c hc => by cases hc⟩)
      fun answer _ => ⟨⟨rfl, fun c hc => ?_⟩, fun _ _ => trivial, ?_⟩
    · cases hc
      exact ⟨hash, rfl⟩
    · split <;> exact conforms_done _

/-- Whoever is found has the id, and the access hash is known if it was known before or came with the
look-up. -/
theorem findUser_knows {a b : Account} {t : List Event} {found : Option User}
    (hkeep : ∀ a b, R.may a b → Knows id hash a → Knows id hash b) (hsnapshots : KeepsSnapshots R)
    (ha : a.peers.Keyed) (h : Run R (findUser id) a t (.done found) b)
    (hregular : ∀ e ∈ t, Regular id hash e)
    (hknown : Knows id hash a ∨
      ∃ c ∈ calls t, LooksFor id c.1 ∧ ∃ reply, c.2 = .ok reply ∧ Lists id hash reply.listed.1) :
    Knows id hash b ∧ ∀ user, found = some user → user.id = id := by
  obtain ⟨x, hx, h⟩ := Run.read_bind_iff.1 h
  cases hfound : x.peers.findUser? id with
  | some user =>
    simp only [hfound] at h
    obtain ⟨rfl, rfl, hb⟩ := Run.done_iff.1 h
    rcases hknown with hknown | ⟨c, hc, -⟩
    · refine ⟨hkeep _ _ hb (hkeep _ _ hx hknown), fun user' huser => ?_⟩
      cases huser
      exact hsnapshots a x hx ha id user hfound
    · cases hc
  | none =>
    simp only [hfound] at h
    obtain ⟨y, hy, h⟩ := Run.read_bind_iff.1 h
    obtain ⟨r, t₁, t₂, a₁, rfl, hcall, hrest⟩ := h.bind_done
    obtain ⟨answer, z, hes, rfl, hz, ha₁⟩ := hcall.call_done
    have hrest : t₂ = [] ∧ (∀ user, found = some user → user.id = id) ∧ R.may a₁ b := by
      revert hrest
      cases outcome _ answer with
      | ok users =>
        intro hrest
        obtain ⟨ht, rfl, hb⟩ := Run.done_iff.1 hrest
        exact ⟨ht, fun user huser => by simpa using List.find?_some huser, hb⟩
      | error e =>
        intro hrest
        obtain ⟨ht, rfl, hb⟩ := Run.done_iff.1 hrest
        exact ⟨ht, fun _ huser => (Option.some_ne_none _ huser.symm).elim, hb⟩
    obtain ⟨rfl, hid, hb⟩ := hrest
    rw [List.append_nil] at hregular hknown
    refine ⟨hkeep _ _ hb (hkeep _ _ ha₁ ?_), hid⟩
    rcases hknown with hknown | ⟨c, hc, -, reply, hreply, hlists⟩
    · exact (hkeep _ _ hz (hkeep _ _ hy (hkeep _ _ hx hknown))).learn (hregular _ hes.answer_mem)
    · rw [hes.calls_eq, List.mem_singleton] at hc
      subst hc
      cases hreply
      exact knows_learn_of_lists hlists

/-! ## The message is handled -/

/-- What a message from the user may lead to: deliveries to the conversation with the user's id, read
marks for the user, and requests for files. -/
structure Proper (id hash : Int64) (m : Message) (e : Event) : Prop where
  deliver : ∀ update, delivered? e = some update → update.chat.chatId = Text.showInt64 id
  call : ∀ c, call? e = some c →
    (∃ query, c.1 = .getFile query) ∨ c.1 = .readHistory (.user id hash) m.id

theorem Forwards.proper {m : Message} {e : Event} (h : Forwards (Text.showInt64 id) e) :
    Proper id hash m e :=
  ⟨h.deliver, fun c hc => .inl (h.call c hc)⟩

/-- Delivers a message from somebody and marks it as read, unless it is not from a person. -/
def attend (m : Message) (user : User) : Program (Except InboundError Unit) :=
  if user.bot || user.isSelf then .done (.ok ())
  else deliver m user >>= fun o => markRead m >>= fun _ => .done o

theorem handleMessage_eq_attend {m : Message} (h : Comes m id) :
    handleMessage m = findUser id >>= fun
      | none => .done (.ok ())
      | some user => attend m user :=
  handleMessage_eq h

/-- All the while the access hash stays known, and the user is not looked up again. -/
theorem conforms_attend {m : Message} {user : User}
    (hkeep : ∀ a b, R.may a b → Knows id hash a → Knows id hash b) :
    (attend m user).Conforms R (.keeping (Knows id hash)) (Regular id hash)
      (fun e => ∀ c, call? e = some c → ¬ LooksFor id c.1) := by
  unfold attend
  split
  · exact conforms_done _
  · have hdeliver : (deliver m user).Conforms R (.keeping (Knows id hash)) (Regular id hash)
        (fun e => ∀ c, call? e = some c → ¬ LooksFor id c.1) := by
      refine (conforms_delivery hkeep m user).mono (fun _ _ h => h) fun e he c hc hlooks => ?_
      obtain ⟨query, hquery⟩ := he.call c hc
      obtain ⟨h, hlooks⟩ := hlooks
      cases hquery.symm.trans hlooks
    refine hdeliver.bind fun o => Conforms.bind ?_ fun _ => conforms_done _
    refine conforms_read.bind fun peer => conforms_call_bind hkeep (fun _ _ c hc => ?_)
      fun answer hanswer => ⟨fun c hc hlooks => ?_, fun _ ha => ha.learn hanswer, conforms_done _⟩
    · cases hc
    · cases hc
      obtain ⟨h, hlooks⟩ := hlooks
      cases hlooks

/-- A message from a user whose access hash is known leads to what is proper, and if something is
delivered, to a read mark. -/
theorem safe_attend {m : Message} {user : User} {a : Account}
    (hkeep : ∀ a b, R.may a b → Knows id hash a → Knows id hash b) (hm : Comes m id)
    (hid : user.id = id) (ha : Knows id hash a) :
    Safe R (fun _ e => Regular id hash e) (fun _ e => Proper id hash m e)
      (fun _ t _ => (∃ e ∈ t, (delivered? e).isSome) →
        ∃ answer, (.readHistory (.user id hash) m.id, answer) ∈ calls t)
      (attend m user) [] a := by
  unfold attend
  split
  · refine Safe.done fun b _ h => ?_
    obtain ⟨e, he, -⟩ := h
    cases he
  · have hdeliver : Safe R (fun _ e => Regular id hash e) (fun _ e => Proper id hash m e)
        (fun _ _ a => Knows id hash a) (deliver m user) [] a :=
      Safe.of_conforms (fun _ a => Knows id hash a) hkeep (conforms_delivery hkeep m user)
        (fun _ _ he => he) (fun t a e hJ _ he => ⟨(hid ▸ he).proper, hJ⟩) (fun _ _ _ hJ h => h hJ) ha
    refine Safe.bind hdeliver fun o t a ha => ?_
    have hmark : Safe R (fun _ e => Regular id hash e) (fun _ e => Proper id hash m e)
        (fun _ t _ => ∃ answer, (.readHistory (.user id hash) m.id, answer) ∈ calls t)
        (markRead m) t a := by
      refine Safe.read fun a₁ ha₁ => ?_
      have hpeer : a₁.peers.inputPeer m.peerId = .user id hash := by
        have hknown : a₁.peers.find? ⟨.user, id⟩ = some hash := hkeep _ _ ha₁ ha
        simp only [hm.2.1, PeerDirectory.inputPeer, Peer.key, hknown, Option.getD_some]
      have hproper (answer : Except CallError Reply) :
          Proper id hash m (.answered (.call (.readHistory (.user id hash) m.id)) answer) := by
        refine ⟨fun update h => ?_, fun c hc => ?_⟩
        · cases h
        · cases hc
          exact .inr rfl
      rw [hpeer]
      refine Safe.call (fun answer _ => hproper answer) fun answer es a₂ a₃ _ _ hes henv => ⟨?_, ?_⟩
      · exact hes.allows (hproper answer) fun _ _ _ => (Forwards.of_none rfl rfl).proper
      · refine Safe.done fun b _ => ⟨answer, ?_⟩
        rw [calls_append, hes.calls_eq]
        exact List.mem_append_right _ (List.mem_singleton.2 rfl)
    exact Safe.bind hmark fun _ t a h => Safe.done fun _ _ _ => h

/-! ## The reply -/

/-- The request that brings a text to the user. -/
def textTo (id hash : Int64) (text : String) (randomId : Int64) : Request :=
  .sendMessage { peer := .user id hash, message := text, randomId }

/-- The event is no call but that of the text for the user. -/
def Texts (id hash : Int64) (text : String) (e : Event) : Prop :=
  ∀ c, call? e = some c → ∃ randomId, c.1 = textTo id hash text randomId

/-- A text for a conversation that has the id of a user whose access hash is known goes to this user, and
nobody is looked up. -/
theorem safe_send {notify : Envelope.Update} {a : Account}
    (hkeep : ∀ a b, R.may a b → Knows id hash a → Knows id hash b)
    (hchat : Notify.userId notify.chat.chatId = .ok id) (hkind : notify.message.kind = .text)
    (ha : Knows id hash a) :
    Safe R Environment.anything (fun _ e => Texts id hash notify.message.text e)
      (fun _ t _ => calls t ≠ []) (Notify.send notify) [] a := by
  have haddressee : Safe R Environment.anything (fun _ e => Texts id hash notify.message.text e)
      (fun r t _ => t = [] ∧ r = .ok (.user id hash)) (Notify.addressee id) [] a := by
    refine Safe.read fun a₁ ha₁ => ?_
    have hknown : a₁.peers.find? ⟨.user, id⟩ = some hash := hkeep _ _ ha₁ ha
    rw [hknown]
    exact Safe.done fun _ _ => ⟨rfl, rfl⟩
  have hsubmit (randomId : Int64) (t : List Event) (a : Account) :
      Safe R Environment.anything (fun _ e => Texts id hash notify.message.text e)
        (fun _ t _ => calls t ≠ [])
        (Notify.submit (textTo id hash notify.message.text randomId)) t a := by
    refine Safe.bind (P := fun _ t _ => calls t ≠ []) (Safe.read fun a₁ _ => ?_) fun r t a h => ?_
    · refine Safe.of_runs (G := .keeping fun _ => True) (fun _ _ _ _ => trivial)
        (conforms_callWithRetry_learn (fun _ _ _ _ => trivial) fun _ _ _ => trivial) ?_ ?_
      · exact fun es e _ he c hc => ⟨randomId, he.request_eq hc⟩
      · intro es r b hrun _ _ _
        rw [calls_append]
        exact List.append_ne_nil_of_right_ne_nil _ (persists_of_run hrun).ne_nil
    · cases r <;> exact Safe.done fun _ _ => h
  unfold Notify.send
  rw [hchat]
  refine Safe.bind haddressee fun r t a h => ?_
  obtain ⟨rfl, rfl⟩ := h
  simp only [Notify.sendBody, hkind]
  refine Safe.external fun randomId a₁ _ _ => ⟨fun c hc => ?_, hsubmit _ _ _⟩
  cases hc

/-- How the pipeline came to see the user with the access hash: in a batch that was pushed, or in a reply,
before the message was handled, or in the reply to the look-up of the sender. -/
inductive Saw (R : Others) (id hash : Int64) (a : Account) (t : List Event) : Prop
  | pushed (x : Account) (updates : Updates) (h : Lists id hash updates.users)
      (hlater : R.may { x with peers := x.peers.apply updates.users updates.chats } a)
  | replied {x : Account} {request : Request} {reply : Reply} (h : Lists id hash reply.listed.1)
      (hlater : R.may (learn request (.ok reply) x) a)
  | lookedUp {c : Call} {reply : Reply} (hc : c ∈ calls t) (hrequest : LooksFor id c.1)
      (hreply : c.2 = .ok reply) (h : Lists id hash reply.listed.1)

/-- What was seen before is known. -/
theorem Saw.knows {a : Account} {t : List Event} (h : Saw R id hash a t)
    (hkeep : ∀ a b, R.may a b → Knows id hash a → Knows id hash b) :
    Knows id hash a ∨
      ∃ c ∈ calls t, LooksFor id c.1 ∧ ∃ reply, c.2 = .ok reply ∧ Lists id hash reply.listed.1 := by
  cases h with
  | pushed _ _ h hlater => exact .inl (hkeep _ _ hlater (find?_apply_of_lists h))
  | replied h hlater => exact .inl (hkeep _ _ hlater (knows_learn_of_lists h))
  | lookedUp hc hrequest hreply h => exact .inr ⟨_, hc, hrequest, _, hreply, h⟩

/-- A numeral with blanks around it is the chat id of the user with this number. -/
theorem userId_numeral (n : Int64) {front back : List Char} (hfront : ∀ c ∈ front, Text.isBlank c)
    (hback : ∀ c ∈ back, Text.isBlank c) :
    Notify.userId (String.ofList (front ++ (Text.showInt64 n).toList ++ back)) = .ok n := by
  simp only [Notify.userId, Text.readInt64?_trim n hfront hback]

/-- What a message from the user has led to, wherever its handling stands: what shows is proper, and once
something was delivered, the access hash is known. -/
theorem handleMessage_shows {m : Message} {a b : Account} {t : List Event}
    {q : Program (Except InboundError Unit)}
    (hkeep : ∀ a b, R.may a b → Knows id hash a → Knows id hash b) (hsnapshots : KeepsSnapshots R)
    (ha : a.peers.Keyed) (hm : Comes m id) (hrun : Run R (handleMessage m) a t q b)
    (hregular : ∀ e ∈ t, Regular id hash e) (hsaw : Saw R id hash a t) :
    (∀ e ∈ t, Proper id hash m e ∨ Seeks id e) ∧
    ((∃ e ∈ t, (delivered? e).isSome) → Knows id hash b ∧ ∀ o, q = .done o →
      ∃ answer, (.readHistory (.user id hash) m.id, answer) ∈ calls t) := by
  rw [handleMessage_eq_attend hm] at hrun
  obtain ⟨p, hfind, rfl⟩ | ⟨found, t₁, t₂, a₁, rfl, hfind, hrest⟩ := hrun.bind_cases
  · have hseeks := (hfind.conforms (fun _ _ _ _ => trivial) conforms_findUser fun _ _ => trivial).2.1
    refine ⟨fun e he => .inr (hseeks e he), ?_⟩
    rintro ⟨e, he, hdelivered⟩
    rw [(hseeks e he).deliver] at hdelivered
    cases hdelivered
  · have hseeks := (hfind.conforms (fun _ _ _ _ => trivial) conforms_findUser fun _ _ => trivial).2.1
    have hregular₁ : ∀ e ∈ t₁, Regular id hash e := fun e he => hregular e (List.mem_append_left _ he)
    have hregular₂ : ∀ e ∈ t₂, Regular id hash e := fun e he => hregular e (List.mem_append_right _ he)
    have hnothing : ¬ ∃ e ∈ t₁, (delivered? e).isSome := by
      rintro ⟨e, he, hdelivered⟩
      rw [(hseeks e he).deliver] at hdelivered
      cases hdelivered
    cases found with
    | none =>
      obtain ⟨rfl, -, -⟩ := hrest.done_inv
      rw [List.append_nil]
      exact ⟨fun e he => .inr (hseeks e he), fun h => (hnothing h).elim⟩
    | some user =>
      obtain ⟨hkept, hnolook, -⟩ := hrest.conforms hkeep (conforms_attend hkeep) hregular₂
      -- what comes after the look-up asks for no user, so a look-up in the history is this one
      have hknown : Knows id hash a ∨ ∃ c ∈ calls t₁, LooksFor id c.1 ∧
          ∃ reply, c.2 = .ok reply ∧ Lists id hash reply.listed.1 := by
        refine (hsaw.knows hkeep).imp_right ?_
        rintro ⟨c, hc, hlooks, hreply⟩
        rw [calls_append, List.mem_append] at hc
        refine ⟨c, hc.resolve_right fun hc₂ => ?_, hlooks, hreply⟩
        obtain ⟨e, he, hcall⟩ := List.mem_filterMap.1 hc₂
        exact hnolook e he c hcall hlooks
      obtain ⟨hknows, hid⟩ := findUser_knows hkeep hsnapshots ha hfind hregular₁ hknown
      have henv : Environment.Allows (fun _ e => Regular id hash e) [] t₂ :=
        Environment.allows_of_forall_mem fun e he _ => hregular₂ e he
      obtain ⟨hproper, hdone⟩ := safe_attend hkeep hm (hid user rfl) hknows t₂ q b hrest henv
      have hproper : ∀ e ∈ t₂, Proper id hash m e := hproper.forall fun _ _ he => he
      refine ⟨fun e he => ?_, ?_⟩
      · rcases List.mem_append.1 he with he | he
        · exact .inr (hseeks e he)
        · exact .inl (hproper e he)
      · rintro ⟨e, he, hdelivered⟩
        have he₂ : e ∈ t₂ :=
          (List.mem_append.1 he).resolve_left fun he₁ => hnothing ⟨e, he₁, hdelivered⟩
        refine ⟨hkept hknows, fun o ho => ?_⟩
        obtain ⟨answer, hanswer⟩ := hdone o ho ⟨e, he₂, hdelivered⟩
        rw [calls_append]
        exact ⟨answer, List.mem_append_right _ hanswer⟩

/-- Whoever sends a text to the conversation, once or again and again, sends it to the user, and nobody is
looked up. -/
def Reaches (R : Others) (id hash : Int64) (a : Account) (chat : Envelope.Channel) : Prop :=
  ∀ notify : Envelope.Update, notify.chat = chat → notify.message.kind = .text →
    ∀ t q b, Run R (Notify.send notify) a t q b →
      (∀ c ∈ calls t, ∃ randomId, c.1 = textTo id hash notify.message.text randomId) ∧
      ∀ o, q = .done o → calls t ≠ []

theorem reaches_of_knows {a : Account} {chat : Envelope.Channel}
    (hkeep : ∀ a b, R.may a b → Knows id hash a → Knows id hash b) (ha : Knows id hash a)
    (hchat : chat.chatId = Text.showInt64 id) : Reaches R id hash a chat := by
  rintro notify rfl hkind t q b hrun
  have hid : Notify.userId notify.chat.chatId = .ok id := by
    have hnumeral : Notify.userId (String.ofList ([] ++ (Text.showInt64 id).toList ++ [])) = .ok id :=
      userId_numeral id (by simp) (by simp)
    simpa [hchat] using hnumeral
  obtain ⟨hspec, hdone⟩ := safe_send hkeep hid hkind ha t q b hrun (Environment.anything_allows _ _)
  refine ⟨fun c hc => ?_, fun o ho => hdone o ho⟩
  obtain ⟨e, he, hcall⟩ := List.mem_filterMap.1 hc
  exact hspec.forall (fun _ _ h => h) e he c hcall

/-- The reply to a message and its read mark go to the same peer: the sender, with the access hash that
came with the sender's snapshot. The chat id is the numeral of the sender's id, and such a numeral, with
blanks around it or without, is read as the id. -/
theorem reply_reaches_sender {m : Message} {a b : Account} {t : List Event}
    {q : Program (Except InboundError Unit)}
    (hkeep : ∀ a b, R.may a b → Knows id hash a → Knows id hash b) (hsnapshots : KeepsSnapshots R)
    (ha : a.peers.Keyed) (hm : Comes m id) (hrun : Run R (handleMessage m) a t q b)
    (hregular : ∀ e ∈ t, Regular id hash e) (hsaw : Saw R id hash a t) :
    (∀ e ∈ t, ∀ update, delivered? e = some update →
      update.chat.chatId = Text.showInt64 id ∧ Reaches R id hash b update.chat ∧
      ∀ o, q = .done o → ∃ answer, (.readHistory (.user id hash) m.id, answer) ∈ calls t) ∧
    (∀ c ∈ calls t, ∀ peer maxId, c.1 = .readHistory peer maxId →
      peer = .user id hash ∧ maxId = m.id) ∧
    ∀ (n : Int64) (front back : List Char), (∀ c ∈ front, Text.isBlank c) →
      (∀ c ∈ back, Text.isBlank c) →
      Notify.userId (String.ofList (front ++ (Text.showInt64 n).toList ++ back)) = .ok n := by
  obtain ⟨hshows, hdelivered⟩ := handleMessage_shows hkeep hsnapshots ha hm hrun hregular hsaw
  refine ⟨fun e he update hupdate => ?_, fun c hc peer maxId hpeer => ?_,
    fun n front back => userId_numeral n⟩
  · have hchat : update.chat.chatId = Text.showInt64 id := by
      rcases hshows e he with hproper | hseeks
      · exact hproper.deliver update hupdate
      · cases hseeks.deliver.symm.trans hupdate
    obtain ⟨hknows, hread⟩ := hdelivered ⟨e, he, by simp [hupdate]⟩
    exact ⟨hchat, reaches_of_knows hkeep hknows hchat, hread⟩
  · obtain ⟨e, he, hcall⟩ := List.mem_filterMap.1 hc
    rcases hshows e he with hproper | hseeks
    · rcases hproper.call c hcall with ⟨query, hquery⟩ | hread
      · cases hquery.symm.trans hpeer
      · cases hread.symm.trans hpeer
        exact ⟨rfl, rfl⟩
    · obtain ⟨h, hlooks⟩ := hseeks.call c hcall
      cases hlooks.symm.trans hpeer

/-! A message from a known user, its delivery, and a reply. -/

/-- The conversation with the user. -/
def conversation : Envelope.Channel := { id := 1, chatId := "5" }

/-- What shows when the message is delivered to the conversation and marked as read. -/
def handedOver : List Event :=
  [.answered (.getChannel 0 "5" (contactOf partner)) (.ok conversation),
    .answered (.deliver 0 (address (.ofText "hi") hello (contactOf partner) conversation)) (.ok ()),
    .answered (.call (.readHistory (.user 5 50) 7)) (.error .dropped)]

/-- The reply. -/
def reply : Envelope.Update := { chat := conversation, message := .ofText "hello" }

/-- What comes of the reply at the server. -/
def sent : Updates := .shortSentMessage true 8 0 0

/-- What shows when the reply is sent. -/
def repliedTo : List Event :=
  [.answered .randomId 9, .answered (.call (textTo 5 50 "hello" 9)) (.ok ⟨.updates, sent⟩),
    .dispatched sent (.ok ())]

theorem handedOver_run :
    Run Others.nobody (handleMessage hello) acquainted handedOver (.done (.ok ())) acquainted := by
  have hdeliver : Run Others.nobody (deliver hello partner) acquainted
      [.answered (.getChannel 0 "5" (contactOf partner)) (.ok conversation),
        .answered (.deliver 0 (address (.ofText "hi") hello (contactOf partner) conversation)) (.ok ())]
      (.done (.ok ())) acquainted := by
    rw [deliver_eq]
    refine Run.read_bind_iff.2 ⟨acquainted, rfl, Run.external_bind_iff.2 ?_⟩
    refine ⟨.ok conversation, _, acquainted, rfl, rfl, Run.external_bind_iff.2 ?_⟩
    exact ⟨.ok (), [], acquainted, rfl, rfl, .refl _ _⟩
  exact hello_run hdeliver

theorem repliedTo_run :
    Run Others.nobody (Notify.send reply) acquainted repliedTo (.done (.ok ()))
      (learn (textTo 5 50 "hello" 9) (.ok ⟨.updates, sent⟩) acquainted) := by
  have hid : Notify.userId reply.chat.chatId = .ok 5 := rfl
  unfold Notify.send
  rw [hid]
  have haddressee : Run Others.nobody (Notify.addressee 5) acquainted [] (.done (.ok (.user 5 50)))
      acquainted := Run.read_bind_iff.2 ⟨acquainted, rfl, .refl _ _⟩
  refine haddressee.bind (Run.external_bind_iff.2 ⟨9, _, acquainted, rfl, rfl, ?_⟩)
  exact (Broadcast.run_send _ sent (.ok ()) acquainted).bind (.refl _ _)

/-- The user came with a batch and wrote; the reply goes to the peer whose message was marked as read. -/
theorem reply_reaches_sender_hello :
    Comes hello 5 ∧ (∀ e ∈ handedOver, Regular 5 50 e) ∧
      Saw Others.nobody 5 50 acquainted handedOver ∧
      Run Others.nobody (handleMessage hello) acquainted handedOver (.done (.ok ())) acquainted ∧
      Run Others.nobody (Notify.send reply) acquainted repliedTo (.done (.ok ()))
        (learn (textTo 5 50 "hello" 9) (.ok ⟨.updates, sent⟩) acquainted) ∧
      Reaches Others.nobody 5 50 acquainted conversation ∧
      ∃ answer, (.readHistory (.user 5 50) 7, answer) ∈ calls handedOver := by
  have hkeep : ∀ a b, Others.nobody.may a b → Knows 5 50 a → Knows 5 50 b := by
    rintro a _ rfl ha
    exact ha
  have hsnapshots : KeepsSnapshots Others.nobody := by
    rintro a _ rfl ha
    exact ha
  have hcomes : Comes hello 5 := ⟨rfl, rfl, by decide⟩
  have hregular : ∀ e ∈ handedOver, Regular 5 50 e := by
    intro e he
    simp only [handedOver, List.mem_cons, List.not_mem_nil, or_false] at he
    rcases he with rfl | rfl | rfl
    · refine ⟨fun c hc => ?_, fun o ho => ?_⟩
      · cases hc
      · cases ho
        rfl
    · refine ⟨fun c hc => ?_, fun o ho => ?_⟩
      · cases hc
      · cases ho
    · refine ⟨fun c hc reply hreply => ?_, fun o ho => ?_⟩
      · cases hc
        cases hreply
      · cases ho
  have hlists : Lists 5 50 [.user partner] :=
    ⟨[], partner, [], rfl, rfl, rfl, fun u hu => by cases hu⟩
  have hsaw : Saw Others.nobody 5 50 acquainted handedOver :=
    .pushed { acquainted with peers := .empty } (.batch [] [.user partner] [] 0 0) hlists rfl
  have hkeyed : acquainted.peers.Keyed := PeerDirectory.keyed_empty.apply _ _
  obtain ⟨hdelivered, -, -⟩ :=
    reply_reaches_sender hkeep hsnapshots hkeyed hcomes handedOver_run hregular hsaw
  obtain ⟨-, hreaches, hread⟩ := hdelivered _ (.tail _ (.head _)) _ rfl
  exact ⟨hcomes, hregular, hsaw, handedOver_run, repliedTo_run, hreaches, hread _ rfl⟩

end Telebridge.Correspondence
