import Telebridge.Proofs.Outbound.Broadcast
set_option autoImplicit false

/-! # One message for each addressee

A broadcast compares addressees, not peers: an addressee is a peer together with the access hash that
it was resolved with. Of all places of a request that are resolved to one peer with one access hash the
first gets the message, and the others are reported as duplicates (`run_messages_addressees_once`). If
the access hashes differ, one peer can get two messages (`one_user_messaged_twice`). -/

namespace Telebridge

/-! ## Addressees -/

namespace InputPeer

/-- The peer that an addressee names; placeholders name none. -/
def key? : InputPeer → Option PeerKey
  | .empty | .self => none
  | .user id _ => some ⟨.user, id⟩
  | .chat id => some ⟨.chat, id⟩
  | .channel id _ => some ⟨.channel, id⟩

/-- The access hash that an addressee carries; groups carry none. -/
def accessHash? : InputPeer → Option Int64
  | .empty | .self | .chat _ => none
  | .user _ hash | .channel _ hash => some hash

/-- Addressees that name a peer are told apart by the peer and the access hash. -/
theorem eq_iff {p q : InputPeer} {key : PeerKey} (hp : p.key? = some key) :
    p = q ↔ q.key? = some key ∧ p.accessHash? = q.accessHash? := by
  constructor
  · rintro rfl
    exact ⟨hp, rfl⟩
  · rintro ⟨hq, hhash⟩
    cases p <;> cases q <;> grind [key?, accessHash?]

end InputPeer

theorem PeerDirectory.key?_inputPeer (d : PeerDirectory) (peer : Peer) :
    (d.inputPeer peer).key? = some peer.key := by
  cases peer <;> rfl

namespace Resolve

open Program

variable {R : Others}

/-- What an addressee comes from: the user with a phone number, or a peer that the directory knows when
its username has been resolved. -/
inductive Origin : InputPeer → Prop
  | user (u : User) : Origin (.user u.id (u.accessHash.getD 0))
  | peer (d : PeerDirectory) (p : Peer) : Origin (d.inputPeer p)

theorem Origin.key? {input : InputPeer} (h : Origin input) : ∃ key, input.key? = some key := by
  cases h with
  | user u => exact ⟨_, rfl⟩
  | peer d p => exact ⟨_, d.key?_inputPeer p⟩

theorem username_done {name : String} {input : InputPeer} {t : List Event} {a b : Account}
    (h : Run R (username name) a t (.done (.ok input)) b) : Origin input := by
  unfold username at h
  dsimp only at h
  split at h
  · cases h.done_inv.2.1
  · obtain ⟨reply, t₁, t₂, a₁, rfl, -, h⟩ := h.bind_done
    cases reply with
    | ok resolved =>
      obtain ⟨found, t₃, t₄, a₂, rfl, hread, h⟩ := h.bind_done
      obtain ⟨rfl, a₃, -, rfl, -⟩ := hread.read_done
      cases h.done_inv.2.1
      exact .peer _ _
    | error e =>
      simp only at h
      split at h <;> cases h.done_inv.2.1

/-- A peer is resolved to a user, or to what the directory makes of a peer. -/
theorem peer_done {text : String} {input : InputPeer} {t : List Event} {a b : Account}
    (h : Run R (peer text) a t (.done (.ok input)) b) : Origin input := by
  unfold peer at h
  dsimp only at h
  split at h
  · cases h.done_inv.2.1
  · split at h
    · obtain ⟨found, t₁, t₂, a₁, rfl, -, h⟩ := h.bind_done
      cases found with
      | ok user =>
        cases h.done_inv.2.1
        exact .user user
      | error e => cases h.done_inv.2.1
    · exact username_done h

end Resolve

namespace Broadcast

open Program Pipeline Envelope Resolve

variable {R : Others}

/-! ## Places of a request -/

theorem Resolves.origin {peers : List String} {a b : Account} {t : List Event}
    {rs : List Resolved} (h : Resolves R peers a t rs b) {input : InputPeer}
    (hinput : .ok input ∈ rs) : Origin input := by
  induction h with
  | nil _ => cases hinput
  | cons hpeer _ ih =>
    rcases List.mem_cons.1 hinput with rfl | hrest
    · exact peer_done hpeer
    · exact ih hrest

/-- The fate of a peer follows from what was resolved before its place. -/
theorem Accounts.follows {earlier rs : List Resolved} {peers : List String} {fates : List Fate}
    (h : Accounts earlier peers rs fates) {j : Nat} {r : Resolved} (hj : rs[j]? = some r) :
    ∃ peer fate, peers[j]? = some peer ∧ fates[j]? = some fate ∧
      Fate.Follows (earlier ++ rs.take j) peer r fate := by
  induction h generalizing j with
  | nil => cases hj
  | @cons earlier peer r' fate peers rs fates hfate _ ih =>
    cases j with
    | zero =>
      cases hj
      exact ⟨peer, fate, rfl, rfl, by simpa using hfate⟩
    | succ j =>
      obtain ⟨peer', fate', hpeer', hfate', hfollows⟩ := ih hj
      exact ⟨peer', fate', hpeer', hfate', by simpa using hfollows⟩

/-- An earlier place is resolved to the same peer with the same access hash. -/
def Repeats (rs : List Resolved) (j : Nat) (key : PeerKey) (hash : Option Int64) : Prop :=
  ∃ i < j, ∃ p, rs[i]? = some (.ok p) ∧ p.key? = some key ∧ p.accessHash? = hash

theorem repeats_iff {rs : List Resolved} {j : Nat} {input : InputPeer} {key : PeerKey}
    (hkey : input.key? = some key) :
    Repeats rs j key input.accessHash? ↔ .ok input ∈ rs.take j := by
  rw [List.mem_iff_getElem?]
  constructor
  · rintro ⟨i, hij, p, hi, hp, hhash⟩
    obtain rfl : p = input := (InputPeer.eq_iff hp).2 ⟨hkey, hhash⟩
    exact ⟨i, by rw [List.getElem?_take_of_lt hij, hi]⟩
  · rintro ⟨i, hi⟩
    have hij : i < j := by
      refine Nat.lt_of_not_le fun hji => ?_
      rw [List.getElem?_take_eq_none hji] at hi
      cases hi
    rw [List.getElem?_take_of_lt hij] at hi
    exact ⟨i, hij, input, hi, hkey, rfl⟩

/-! ## The whole broadcast -/

/-- A finished broadcast of an account that is signed in: what the peers of the request were resolved
to, and what became of them. -/
structure Completes (R : Others) (request : BroadcastRequest) (a : Account) (t : List Event)
    (rs : List Resolved) (fates : List Fate) (report : BroadcastResponse) : Prop where
  phases : ∃ t₁ t₂ a₁ a₂, t = t₁ ++ t₂ ∧ R.may a a₁ ∧ Resolves R request.peers a₁ t₁ rs a₂ ∧
    (∀ c ∈ calls t₁, IsQuery c.1) ∧
    Sends a.config.retryPolicy request.text (fates.filterMap Fate.message?) t₂
  accounts : Accounts [] request.peers rs fates
  report_eq : report = reportOf request.peers fates

theorem completes_of_run {request : BroadcastRequest} {a b : Account} {t : List Event}
    {report : BroadcastResponse} (hR : ∀ a b, R.may a b → b.config = a.config)
    (h : Run R (run request) a t (.done (.ok report)) b) :
    ∃ rs fates, Completes R request a t rs fates report := by
  obtain ⟨authorized, t₀, t', a₀, rfl, hread, h⟩ := h.bind_done
  obtain ⟨rfl, a₁, ha₁, rfl, ha₀⟩ := hread.read_done
  split at h
  · obtain ⟨r, t₁, t₂, a₂, rfl, hfirst, h⟩ := h.bind_done
    obtain ⟨failures, t₃, t₄, a₃, rfl, hsecond, h⟩ := h.bind_done
    obtain ⟨rfl, hreport, -⟩ := h.done_inv
    cases hreport
    obtain ⟨hconfig, hasking, -⟩ :=
      hfirst.conforms hR (conforms_resolveAll hR {} 0 request.peers) fun _ _ => trivial
    have hnone (input : InputPeer) : .ok input ∈ ([] : List Resolved) ↔
        ∃ target ∈ ({} : Resolution).targets, target.peer = input := by simp
    obtain ⟨rs, fs, ts, hresolves, rfl, hsorts⟩ :=
      resolveAll_done (hfirst.after_others ha₀) hnone
    have hpolicy : a₂.config.retryPolicy = a.config.retryPolicy := by
      rw [hconfig, hR _ _ ha₀, hR _ _ ha₁]
    obtain ⟨outcomes, hlength, hsends, rfl⟩ := sendAll_done hR hpolicy hsecond
    obtain ⟨fates, haccounts, hmessages, hperm⟩ := hsorts outcomes hlength
    rw [List.nil_append, List.append_nil]
    refine ⟨rs, fates, ⟨t₁, t₃, a₁, a₂, rfl, ha₁, hresolves, fun c hc => ?_, hmessages ▸ hsends⟩,
      haccounts, report_eq haccounts.length_eq hperm⟩
    obtain ⟨e, he, hec⟩ := List.mem_filterMap.1 hc
    exact hasking e he c hec
  · cases h.done_inv.2.1

/-- A duplicate is reported under the name given in the request. -/
theorem mem_reportOf {peers : List String} {fates : List Fate} {j : Nat} {peer : String}
    {e : ResolveError} (hpeer : peers[j]? = some peer) (hfate : fates[j]? = some (.unresolved e)) :
    ⟨peer, e.reason⟩ ∈ (reportOf peers fates).failures := by
  have hzip : (peer, Fate.unresolved e) ∈ peers.zip fates :=
    List.mem_of_getElem? (List.getElem?_zip_eq_some.2 ⟨hpeer, hfate⟩)
  exact List.mem_filterMap.2 ⟨_, hzip, rfl⟩

/-- A broadcast always comes to its end. A place that is resolved names a peer; if an earlier place was
resolved to that peer with the same access hash, it is reported as a duplicate and gets no message, and
otherwise it gets one. So two places that are resolved to one peer both get a message only if their
access hashes differ. -/
theorem run_messages_addressees_once {R : Others} (request : BroadcastRequest) (a : Account)
    (hR : ∀ a b, R.may a b → b.config = a.config) :
    (∀ bound, Returns R (relenting a.config.retryPolicy bound) (fun _ _ _ => True) (run request)
      [] a) ∧
    ∀ t report b, Run R (run request) a t (.done (.ok report)) b →
      ∃ rs fates, Completes R request a t rs fates report ∧
        ∀ j input, rs[j]? = some (.ok input) →
          ∃ peer key, request.peers[j]? = some peer ∧ input.key? = some key ∧
            (Repeats rs j key input.accessHash? ∧
                fates[j]? = some (.unresolved (.duplicate peer)) ∧
                ⟨peer, ⟨400, "chat.broadcast.peer.duplicate"⟩⟩ ∈ report.failures ∨
              ¬ Repeats rs j key input.accessHash? ∧
                ∃ outcome, fates[j]? = some (.messaged input outcome)) := by
  refine ⟨fun bound => run_ends request hR rfl, fun t report b h => ?_⟩
  obtain ⟨rs, fates, hcompletes⟩ := completes_of_run hR h
  refine ⟨rs, fates, hcompletes, fun j input hj => ?_⟩
  obtain ⟨_, _, _, _, -, -, hresolves, -⟩ := hcompletes.phases
  obtain ⟨key, hkey⟩ := (hresolves.origin (List.mem_of_getElem? hj)).key?
  obtain ⟨peer, fate, hpeer, hfate, hfollows⟩ := hcompletes.accounts.follows hj
  refine ⟨peer, key, hpeer, hkey, ?_⟩
  rw [repeats_iff hkey]
  cases hfollows with
  | duplicate hseen =>
    refine .inl ⟨by simpa using hseen, hfate, ?_⟩
    rw [hcompletes.report_eq]
    exact mem_reportOf hpeer hfate
  | messaged hnew => exact .inr ⟨by simpa using hnew, _, hfate⟩

/-! ## One user, two messages -/

/-- A phone number is resolved to a user that the directory does not have under it. -/
theorem run_phone {number digits : String} {a : Account} {resolved : ResolvedPeer} {user : User}
    (hdigits : Phone.digits number = digits) (hsome : digits.isEmpty = false)
    (hnew : a.peers.findPhone? digits = none) (hpeer : resolved.peer = .user user.id)
    (hsingle : singleUser? resolved.users user.id = some user) :
    Run R (phone number) a [.answered (.call (.resolvePhone digits)) (.ok ⟨.resolvedPeer, resolved⟩)]
      (.done (.ok user)) (learn (.resolvePhone digits) (.ok ⟨.resolvedPeer, resolved⟩) a) := by
  have hindexed : Run R (indexed digits) a [] (.done (.ok none)) a := by
    have hread : Run R (read fun a => a.peers.findPhone? digits) a [] (.done none) a :=
      .of_await (congrArg (fun found => some (found, a)) hnew)
    exact hread.bind (.refl _ a)
  have hcall : Run R (callWithRetry (.attempts 2) (.resolvePhone digits)) a
      [.answered (.call (.resolvePhone digits)) (.ok ⟨.resolvedPeer, resolved⟩)]
      (.done (.ok resolved)) (learn (.resolvePhone digits) (.ok ⟨.resolvedPeer, resolved⟩) a) :=
    .iterate_done ((Run.of_call a rfl).bind (.refl _ _))
  have hremote : Run R (remote digits) a
      [.answered (.call (.resolvePhone digits)) (.ok ⟨.resolvedPeer, resolved⟩)]
      (.done (.ok user)) (learn (.resolvePhone digits) (.ok ⟨.resolvedPeer, resolved⟩) a) := by
    refine hcall.bind ?_
    simp only [hpeer, hsingle]
    exact .refl _ _
  unfold phone
  simp only [hdigits, hsome]
  exact hindexed.bind hremote

/-- A username is resolved to a peer, with the access hash that the directory then has. -/
theorem run_username {name bare : String} {a : Account} {resolved : ResolvedPeer}
    (hbare : bareUsername name = bare) (hsome : bare.isEmpty = false) :
    Run R (username name) a [.answered (.call (.resolveUsername bare)) (.ok ⟨.resolvedPeer, resolved⟩)]
      (.done (.ok ((learn (.resolveUsername bare) (.ok ⟨.resolvedPeer, resolved⟩) a).peers.inputPeer
        resolved.peer)))
      (learn (.resolveUsername bare) (.ok ⟨.resolvedPeer, resolved⟩) a) := by
  have hcall : Run R (call (.resolveUsername bare)) a
      [.answered (.call (.resolveUsername bare)) (.ok ⟨.resolvedPeer, resolved⟩)]
      (.done (.ok resolved)) (learn (.resolveUsername bare) (.ok ⟨.resolvedPeer, resolved⟩) a) :=
    Run.of_call a rfl
  have hread (a : Account) : Run R (read fun a => a.peers.inputPeer resolved.peer) a []
      (.done (a.peers.inputPeer resolved.peer)) a := .of_await rfl
  subst hbare
  unfold username
  simp only [hsome, Bool.false_eq_true, if_false]
  refine hcall.bind ?_
  exact (hread _).bind (.refl _ _)

/-- A message is accepted, and the updates that come with it are handled. -/
theorem run_send (m : TextMessage) (updates : Updates) (o : Except InboundError Unit) (a : Account) :
    Run R (callPersistently (.sendMessage m)) a
      [.answered (.call (.sendMessage m)) (.ok ⟨.updates, updates⟩), .dispatched updates o]
      (.done (.ok updates)) (learn (.sendMessage m) (.ok ⟨.updates, updates⟩) a) := by
  have hexchange : Exchange (.sendMessage m) (.ok ⟨.updates, updates⟩)
      [.answered (.call (.sendMessage m)) (.ok ⟨.updates, updates⟩), .dispatched updates o] := ⟨o, rfl⟩
  have hcall (policy : RetryPolicy) : Run R (callWithRetry policy (.sendMessage m)) a
      [.answered (.call (.sendMessage m)) (.ok ⟨.updates, updates⟩), .dispatched updates o]
      (.done (.ok updates)) (learn (.sendMessage m) (.ok ⟨.updates, updates⟩) a) :=
    .iterate_done ((Run.of_exchange a hexchange).bind (.refl _ _))
  have hread : Run R (read fun a => a.config.retryPolicy) a [] (.done a.config.retryPolicy) a :=
    .of_await rfl
  exact hread.bind (hcall _)

/-- Bob as a phone number leads to him, without an access hash. -/
def bobByPhone : ResolvedPeer :=
  { peer := .user 5, chats := [], users := [.user { id := 5 }] }

/-- Bob as his username leads to him, with an access hash. -/
def bobByName : ResolvedPeer :=
  { peer := .user 5, chats := [], users := [.user { id := 5, accessHash := some 70 }] }

/-- A text for Bob under both names. -/
def bobTwice : BroadcastRequest :=
  { peers := ["+1555", "@bob"], text := "hello" }

/-- An account that is signed in. -/
def signedIn : Account :=
  { config := {}, profile := 0, signal := { user := some { id := 1 } } }

/-- The account after it has learnt who has the phone number. -/
def phoneKnown : Account :=
  learn (.resolvePhone "1555") (.ok ⟨.resolvedPeer, bobByPhone⟩) signedIn

/-- The account after it has learnt who has the username as well. -/
def nameKnown : Account :=
  learn (.resolveUsername "bob") (.ok ⟨.resolvedPeer, bobByName⟩) phoneKnown

/-- What comes of the texts that are sent to Bob. -/
def accepted : Updates :=
  .shortSentMessage true 1 0 0

/-- The events of a text that is sent to Bob. -/
def sentToBob (accessHash id : Int64) : List Event :=
  [.answered (.call (.sendMessage { peer := .user 5 accessHash, message := "hello", randomId := id }))
    (.ok ⟨.updates, accepted⟩), .dispatched accepted (.ok ())]

/-- The events of a broadcast in which both names of Bob are resolved, and a text is sent to either. -/
def bothSent : List Event :=
  [.answered (.call (.resolvePhone "1555")) (.ok ⟨.resolvedPeer, bobByPhone⟩),
    .answered (.call (.resolveUsername "bob")) (.ok ⟨.resolvedPeer, bobByName⟩)] ++
  (.answered .randomId 1 :: sentToBob 0 1 ++ .answered .randomId 2 :: sentToBob 70 2)

theorem run_peer_bobByPhone : Run Others.nobody (peer "+1555") signedIn
    [.answered (.call (.resolvePhone "1555")) (.ok ⟨.resolvedPeer, bobByPhone⟩)]
    (.done (.ok (.user 5 0))) phoneKnown := by
  have hempty : (Text.trim "+1555").isEmpty = false := by decide
  have hnumber : Phone.isNumber (Text.trim "+1555") = true := by decide
  have hfound : Run Others.nobody (phone (Text.trim "+1555")) signedIn
      [.answered (.call (.resolvePhone "1555")) (.ok ⟨.resolvedPeer, bobByPhone⟩)]
      (.done (.ok { id := 5 })) phoneKnown :=
    run_phone (by decide) (by decide) rfl rfl rfl
  simp only [peer, hempty, hnumber, Bool.false_eq_true, if_false, if_true]
  exact hfound.bind (.refl _ _)

theorem run_peer_bobByName : Run Others.nobody (peer "@bob") phoneKnown
    [.answered (.call (.resolveUsername "bob")) (.ok ⟨.resolvedPeer, bobByName⟩)]
    (.done (.ok (.user 5 70))) nameKnown := by
  have hempty : (Text.trim "@bob").isEmpty = false := by decide
  have hnumber : Phone.isNumber (Text.trim "@bob") = false := by decide
  simp only [peer, hempty, hnumber, Bool.false_eq_true, if_false]
  exact run_username (by decide) (by decide)

theorem run_bobTwice : ∃ b, Run Others.nobody (run bobTwice) signedIn bothSent (.done (.ok {})) b := by
  have hfirst : Run Others.nobody (resolveAll {} 0 bobTwice.peers) signedIn
      [.answered (.call (.resolvePhone "1555")) (.ok ⟨.resolvedPeer, bobByPhone⟩),
        .answered (.call (.resolveUsername "bob")) (.ok ⟨.resolvedPeer, bobByName⟩)]
      (.done { targets := [⟨0, .user 5 0⟩, ⟨1, .user 5 70⟩] }) nameKnown :=
    run_peer_bobByPhone.bind (run_peer_bobByName.bind (.refl _ _))
  have hsend (accessHash id : Int64) (a : Account) :=
    run_send (R := Others.nobody) { peer := .user 5 accessHash, message := "hello", randomId := id }
      accepted (.ok ()) a
  have hdraw (id : Int64) (a : Account) :
      Run Others.nobody (external .randomId) a [.answered .randomId id] (.done id) a :=
    .of_external _ id a
  have hsecond : ∃ b, Run Others.nobody (sendAll "hello" [⟨0, .user 5 0⟩, ⟨1, .user 5 70⟩]) nameKnown
      (.answered .randomId 1 :: sentToBob 0 1 ++ .answered .randomId 2 :: sentToBob 70 2)
      (.done []) b :=
    ⟨_, (hdraw 1 _).bind ((hsend 0 1 _).bind ((hdraw 2 _).bind ((hsend 70 2 _).bind (.refl _ _))))⟩
  obtain ⟨b, hsecond⟩ := hsecond
  have hread : Run Others.nobody (read fun a => a.signal.isAuthorized) signedIn [] (.done true)
      signedIn := .of_await rfl
  have hreport : Run Others.nobody (pure (Except.ok (report bobTwice.peers ([] ++ []))) :
      Program (Except GatewayError BroadcastResponse)) b [] (.done (.ok {})) b := by
    simp only [report, List.append_nil, List.mergeSort_nil, List.map_nil]
    exact .refl _ b
  exact ⟨b, hread.bind (hfirst.bind (hsecond.bind hreport))⟩

theorem completes_bobTwice : Completes Others.nobody bobTwice signedIn bothSent
    [.ok (.user 5 0), .ok (.user 5 70)]
    [.messaged (.user 5 0) (.ok accepted), .messaged (.user 5 70) (.ok accepted)] {} := by
  have hsend (policy : RetryPolicy) (accessHash id : Int64) : Persists policy
      (.sendMessage { peer := .user 5 accessHash, message := "hello", randomId := id }) 1
      (calls (sentToBob accessHash id)) (.ok accepted) :=
    .settled fun e he => by cases he
  refine ⟨⟨_, _, signedIn, nameKnown, rfl, rfl, ?_, ?_, ?_⟩, ?_, rfl⟩
  · exact .cons run_peer_bobByPhone (.cons run_peer_bobByName (.nil rfl))
  · intro c hc
    simp only [calls, List.filterMap_cons, call?, List.filterMap_nil, List.mem_cons,
      List.not_mem_nil, or_false] at hc
    obtain rfl | rfl := hc <;> trivial
  · exact .cons (hsend _ 0 1) (.cons (t := sentToBob 70 2) (u := []) (hsend _ 70 2) .nil)
  · exact .cons (.messaged (by simp)) (.cons (.messaged (by simp)) .nil)

/-- Two places that are resolved to one user both get a message when the access hashes differ: the later
one is not reported as a duplicate. -/
theorem one_user_messaged_twice :
    ¬ ∀ (request : BroadcastRequest) (a b : Account) (t : List Event) (rs : List Resolved)
      (fates : List Fate) (report : BroadcastResponse),
      Run Others.nobody (run request) a t (.done (.ok report)) b →
      Completes Others.nobody request a t rs fates report →
      ∀ (i j : Nat) (p q : InputPeer) (peer : String), i < j → rs[i]? = some (.ok p) →
        rs[j]? = some (.ok q) → p.key? = q.key? → request.peers[j]? = some peer →
        fates[j]? = some (.unresolved (.duplicate peer)) := by
  intro h
  obtain ⟨b, hrun⟩ := run_bobTwice
  have hduplicate := h bobTwice signedIn b bothSent _ _ {} hrun completes_bobTwice 0 1 (.user 5 0)
    (.user 5 70) "@bob" (by decide) rfl rfl rfl rfl
  cases hduplicate

/-- Nothing is reported of the two messages to Bob, as neither name repeats the other. -/
theorem run_messages_addressees_once_bobTwice :
    (∀ a b, Others.nobody.may a b → b.config = a.config) ∧
    ∃ b, Run Others.nobody (run bobTwice) signedIn bothSent (.done (.ok {})) b ∧
      ∃ rs fates, Completes Others.nobody bobTwice signedIn bothSent rs fates {} ∧
        ∀ j input, rs[j]? = some (.ok input) →
          ∃ key outcome, input.key? = some key ∧ ¬ Repeats rs j key input.accessHash? ∧
            fates[j]? = some (.messaged input outcome) := by
  have hR : ∀ a b, Others.nobody.may a b → b.config = a.config := fun _ _ h => congrArg _ h
  obtain ⟨b, hrun⟩ := run_bobTwice
  obtain ⟨rs, fates, hcompletes, hplaces⟩ :=
    (run_messages_addressees_once bobTwice signedIn hR).2 bothSent {} b hrun
  refine ⟨hR, b, hrun, rs, fates, hcompletes, fun j input hj => ?_⟩
  obtain ⟨peer, key, -, hkey, ⟨-, -, hreported⟩ | ⟨hnew, outcome, hfate⟩⟩ := hplaces j input hj
  · cases hreported
  · exact ⟨key, outcome, hkey, hnew, hfate⟩

end Broadcast

end Telebridge
