import Telebridge.Proofs.Session.Stored
set_option autoImplicit false

/-! # Starting again

What a session holds when it becomes ready on the metadata that an earlier run has left. For a fresh
account these are the logout tokens and the access hashes that were held when the earlier run ended
(`fresh_session_restores`). An account that still holds its tokens gets them a second time, as far as
there is room (`restarted_tokens_iff`). -/

namespace Telebridge

/-! ## Tokens that are restored twice -/

namespace LoginFlow

/-- Restoring what is held changes nothing exactly if there is nothing, or no room. -/
theorem tokens_restoreTokens_self_iff (flow : LoginFlow) :
    (flow.restoreTokens flow.tokens).tokens = flow.tokens ↔
      flow.tokens = [] ∨ maxTokens ≤ flow.tokens.length := by
  simp only [restoreTokens, List.append_right_eq_self, List.take_eq_nil_iff, Nat.sub_eq_zero_iff_le]
  exact or_comm

/-- A single token is repeated. -/
theorem tokens_restoreTokens_self_ne {flow : LoginFlow} (h : flow.tokens.length = 1) :
    (flow.restoreTokens flow.tokens).tokens ≠ flow.tokens := by
  rw [Ne, tokens_restoreTokens_self_iff]
  rintro (hnone | hfull)
  · rw [hnone] at h
    cases h
  · rw [h] at hfull
    exact absurd hfull (by decide)

end LoginFlow

namespace Session

open Program

/-! ## A session that is stopped -/

/-- The events of a start up to the report that the session is ready, if the server does not answer who
is signed in. -/
def unanswered (id : ProfileId) (profile : Profile) : List Event :=
  [.answered .connect (), .answered .linkEvent .connected,
    .answered (.call (.getUsers [.self])) (.error .timeout), .answered (.profile id) profile,
    .answered (.profile id) profile]

/-- An account that became ready without an answer to who is signed in. -/
def readied (a : Account) (flow : LoginFlow) (users : Table Int64 Int64) : Account :=
  { a with
    connection := .up
    login := .free flow
    peers := a.peers.restoreUsers users.toList
    started := true
    readiness := .reported }

/-- A session that takes up some tokens may become ready so. -/
theorem becomesReady_unanswered (R S : Others) {a : Account} {flow : LoginFlow} {profile : Profile}
    {users : Table Int64 Int64} (hawaited : a.readiness = .awaited) (hlogin : a.login = .free flow)
    (htokens : restorable profile.metadata ≠ []) (hstored : storedHashes profile.metadata = .ok users) :
    BecomesReady R S a (unanswered a.profile profile) (iterate () linkTurn)
      (readied a (flow.restoreTokens (restorable profile.metadata)) users) := by
  let a₁ : Account := { a with connection := .up }
  let a₂ : Account := { a₁ with login := .taken }
  let a₃ : Account := { a₁ with login := .free (flow.restoreTokens (restorable profile.metadata)) }
  let a₄ : Account := { a₃ with peers := a.peers.restoreUsers users.toList }
  -- the connection comes up
  have hlink : Run R link a [.answered .connect (), .answered .linkEvent .connected]
      (iterate () linkTurn) a₁ := by
    have hup : Run R (update fun a => { a with connection := .up }) a [] (.done ()) a₁ := .of_await rfl
    have hturn : Run R (linkTurn ()) a [.answered .linkEvent .connected] (.done (.inl ())) a₁ :=
      Run.bind (.of_external .linkEvent .connected a) (hup.bind (.refl _ a₁))
    exact Run.bind (.of_external .connect () a) (Run.iterate_turn hturn (.refl _ a₁))
  -- the server is asked, the profile read, and the login flow taken
  have hclaiming : Run R claiming a₁
      [.answered (.call (.getUsers [.self])) (.error .timeout), .answered (.profile a.profile) profile]
      (.done (.tokens (flow.restoreTokens (restorable profile.metadata)))) a₂ := by
    have hup : Run R awaitConnection a₁ [] (.done true) a₁ := .of_await rfl
    have hexchange : Pipeline.Exchange (.getUsers [.self]) (.error .timeout)
        [.answered (.call (.getUsers [.self])) (.error .timeout)] := rfl
    have hcall : Run R (Pipeline.call (.getUsers [.self])) a₁
        [.answered (.call (.getUsers [.self])) (.error .timeout)] (.done (.error .timeout)) a₁ :=
      .of_exchange a₁ hexchange
    have hread : Run R currentProfile a₁ [.answered (.profile a.profile) profile] (.done profile) a₁ :=
      Run.bind (.of_await rfl) (.of_external (.profile a.profile) profile a₁)
    have htake : Run R takeFlow a₁ [] (.done flow) a₂ := .of_await (by simp [a₁, a₂, hlogin])
    have hwho : Run R Login.whoAmI a₁ _ (.done (.error .timeout)) a₁ := hcall.bind (.refl _ a₁)
    have hrefresh : Run R Login.refresh a₁ _ (.done (.error .timeout)) a₁ := hwho.bind (.refl _ a₁)
    have hopening : Run R opening a₁ _ (.done (some profile)) a₁ :=
      hup.bind (hrefresh.bind (hread.bind (.refl _ a₁)))
    refine Run.bind hopening ?_
    have hsome : ¬ (restorable profile.metadata).isEmpty = true := by rwa [List.isEmpty_iff]
    simp only [if_neg hsome]
    exact htake.bind (.refl _ a₂)
  have hrestored : Run S (restored (.tokens (flow.restoreTokens (restorable profile.metadata)))) a₂
      [.answered (.profile a.profile) profile] (.done (.ok ()))
      (readied a (flow.restoreTokens (restorable profile.metadata)) users) := by
    have hput : Run S (putBack (.tokens (flow.restoreTokens (restorable profile.metadata)))) a₂ []
        (.done ()) a₃ := .of_await rfl
    have hread : Run S currentProfile a₃ [.answered (.profile a.profile) profile] (.done profile) a₃ :=
      Run.bind (.of_await rfl) (.of_external (.profile a.profile) profile a₃)
    have hpeers : Run S restorePeers a₃ [.answered (.profile a.profile) profile] (.done ()) a₄ := by
      refine hread.bind ?_
      rw [show Backup.toHashes (profile.metadataText MetadataKey.peers) = .ok users from hstored]
      exact .of_await rfl
    have hreport : Run S reportReady { a₄ with started := true } [] (.done true)
        (readied a (flow.restoreTokens (restorable profile.metadata)) users) :=
      .of_await (by simp [a₁, a₃, a₄, readied, hawaited])
    exact hput.bind (hpeers.bind (Run.bind (.of_await rfl) (hreport.bind (.refl _ _))))
  exact ⟨_, _, _, _, a₂, rfl, hlink.race_left.append hclaiming.race_right, hrestored.race_right⟩

/-- The events of a session that became ready so and is stopped. -/
def stopped (id : ProfileId) (profile : Profile) (b : Account) (flow : LoginFlow) : List Event :=
  unanswered id profile ++ ([.answered .linkEvent (.ended (.ok ()))] ++
    [.answered (.setMetadata id (backup flow.tokens b.peers.backupUsers)) (.ok ())])

/-- Such a session may end when its connection does. -/
theorem endsReady_stopped (R S Q : Others) {a : Account} {flow : LoginFlow} {profile : Profile}
    {users : Table Int64 Int64} (hawaited : a.readiness = .awaited) (hlogin : a.login = .free flow)
    (hstore : a.store = .profile none) (htokens : restorable profile.metadata ≠ [])
    (hstored : storedHashes profile.metadata = .ok users) :
    let flow' := flow.restoreTokens (restorable profile.metadata)
    let b : Account := { readied a flow' users with started := false }
    EndsReady R S Q a (stopped a.profile profile b flow') (.ok ()) b := by
  intro flow' b
  let a₁ := readied a flow' users
  have hready := becomesReady_unanswered R S hawaited hlogin htokens hstored
  have hwatch : Run S (either (iterate () linkTurn) (watching (.ok ()))) a₁
      [.answered .linkEvent (.ended (.ok ()))] (.done (.inl (.ended (.ok ())))) a₁ :=
    Run.race_left_done (run_linkTurns_ended _ _)
  have hwrap : Run Q (wrapUp (.ok ())) a₁
      [.answered (.setMetadata a.profile (backup flow'.tokens b.peers.backupUsers)) (.ok ())]
      (.done (.finished (.ok ()))) b := run_wrapUp (.ok ()) hstore rfl
  exact ⟨_, _, _, _, _, a₁, a₁, rfl, hready, hwatch, hwrap⟩

/-- The contents of a profile that was read. -/
def seen? : Event → Option Profile
  | .answered (.profile _) profile => some profile
  | _ => none

/-- The answer of the server. -/
def answer? : Event → Option (Except CallError Reply)
  | .answered (.call _) answer => some answer
  | _ => none

theorem Shows.unseen {id : ProfileId} {m : Metadata} {e : Event} {t : List Event} (he : seen? e = none)
    (h : Shows id (merge id m e) t) : Shows id m (e :: t) := by
  refine ⟨fun seen heq => ?_, h⟩
  rw [heq] at he
  cases he

theorem shows_unanswered (id : ProfileId) (profile : Profile) :
    Shows id profile.metadata (unanswered id profile) := by
  have hread (seen : Profile) (h : Event.answered (.profile id) profile = .answered (.profile id) seen) :
      SameBackup seen.metadata profile.metadata := by
    cases h
    exact ⟨rfl, rfl⟩
  exact .unseen rfl (.unseen rfl (.unseen rfl ⟨hread, hread, trivial⟩))

theorem shows_stopped (id : ProfileId) (profile : Profile) (b : Account) (flow : LoginFlow) :
    Shows id profile.metadata (stopped id profile b flow) :=
  shows_append.2 ⟨shows_unanswered id profile, .unseen rfl (.unseen rfl trivial)⟩

theorem taken_stopped (id : ProfileId) (profile : Profile) (b : Account) (flow : LoginFlow) :
    ∀ e ∈ stopped id profile b flow, Taken e := by
  simp [stopped, unanswered, Taken]

theorem answer_unanswered {id : ProfileId} {profile : Profile} {request : Request}
    {answer : Except CallError Reply} (h : .answered (.call request) answer ∈ unanswered id profile) :
    answer = .error .timeout := by
  have hanswer := List.mem_map_of_mem (f := answer?) h
  simpa [unanswered, answer?] using hanswer

/-- An account that can be started takes up the stored tokens behind its own. -/
theorem exists_start (R S : Others) {a : Account} {m : Metadata} {flow : LoginFlow}
    {users : Table Int64 Int64} (hawaited : a.readiness = .awaited) (hlogin : a.login = .free flow)
    (htokens : restorable m ≠ []) (hstored : storedHashes m = .ok users) :
    ∃ t l b, BecomesReady R S a t l b ∧ Shows a.profile m t ∧
      b.login = .free (flow.restoreTokens (restorable m)) ∧
      ∀ answer, .answered (.call (.getUsers [.self])) answer ∈ t → answer = .error .timeout := by
  let profile : Profile := { metadata := m }
  have hready : BecomesReady R S a (unanswered a.profile profile) _ _ :=
    becomesReady_unanswered R S hawaited hlogin htokens hstored
  exact ⟨_, _, _, hready, shows_unanswered a.profile profile, rfl, fun _ h => answer_unanswered h⟩

/-- Metadata in which a logout token and the access hash 50 of user 5 are stored. -/
def oneEach : Metadata :=
  Table.ofList [(MetadataKey.auth, "eyJ0b2tlbnMiOlsiQVFMLyJdfQ"), (MetadataKey.peers, "eyI1Ijo1MH0")]

theorem length_restorable_oneEach : (restorable oneEach).length = 1 := by decide +kernel

theorem storedHashes_oneEach : storedHashes oneEach = .ok (Table.ofList [(5, 50)]) := by
  have hsome : (storedHashes oneEach).toOption = some (Table.ofList [(5, 50)]) := by decide +kernel
  cases h : storedHashes oneEach with
  | error e =>
    rw [h] at hsome
    cases hsome
  | ok users =>
    rw [h] at hsome
    cases hsome
    rfl

theorem capped_newAccount : Capped newAccount := by
  intro flow h
  cases h
  decide

/-- What is stored in `oneEach` is held when a session is stopped, and stored again. -/
theorem exists_stop : ∃ t b flow users,
    EndsReady lawful (holding (restorable oneEach ≠ [])) still newAccount t (.ok ()) b ∧
    Shows newAccount.profile oneEach t ∧ (∀ e ∈ t, Taken e) ∧ b.login = .free flow ∧
    flow.tokens.length = 1 ∧ b.peers.find? ⟨.user, 5⟩ = some 50 ∧
    restorable (metadataAfter newAccount.profile oneEach t) = flow.tokens ∧
    storedHashes (metadataAfter newAccount.profile oneEach t) = .ok users := by
  let profile : Profile := { metadata := oneEach }
  have htokens : restorable profile.metadata ≠ [] := by
    intro h
    have hlength := length_restorable_oneEach
    rw [h] at hlength
    cases hlength
  let flow : LoginFlow := ({} : LoginFlow).restoreTokens (restorable oneEach)
  let b : Account := { readied newAccount flow (Table.ofList [(5, 50)]) with started := false }
  have hend : EndsReady lawful (holding (restorable oneEach ≠ [])) still newAccount
      (stopped newAccount.profile profile b flow) (.ok ()) b :=
    endsReady_stopped _ _ _ rfl rfl rfl htokens storedHashes_oneEach
  have hshows := shows_stopped newAccount.profile profile b flow
  have htaken := taken_stopped newAccount.profile profile b flow
  obtain ⟨flow', hlogin, -, hstored, hhashes⟩ := hend.stored capped_newAccount hshows htaken
  cases hlogin
  refine ⟨_, b, flow, _, hend, hshows, htaken, rfl, ?_, by decide +kernel, hstored, hhashes⟩
  simp [flow, LoginFlow.restoreTokens, LoginFlow.maxTokens, length_restorable_oneEach]

/-- A session with one logout token is stopped and started again. -/
theorem exists_restart : ∃ t b b' t' l c flow,
    EndsReady lawful (holding (restorable oneEach ≠ [])) still newAccount t (.ok ()) b ∧
    Shows newAccount.profile oneEach t ∧ (∀ e ∈ t, Taken e) ∧ still.may b b' ∧
    BecomesReady still still b' t' l c ∧
    Shows b'.profile (metadataAfter newAccount.profile oneEach t) t' ∧
    b.login = .free flow ∧ c.login = .free (flow.restoreTokens flow.tokens) ∧
    flow.tokens.length = 1 := by
  obtain ⟨t, b, flow, users, hend, hshows, htaken, hlogin, hlength, -, htokens, hhashes⟩ :=
    exists_stop
  have hsome : restorable (metadataAfter newAccount.profile oneEach t) ≠ [] := by
    rw [htokens]
    exact List.ne_nil_of_length_eq_add_one hlength
  let b' : Account := { b with connection := .pending, readiness := .awaited }
  obtain ⟨t', l, c, hready, hshows', hlogin', -⟩ :=
    exists_start still still (a := b') rfl hlogin hsome hhashes
  rw [htokens] at hlogin'
  exact ⟨t, b, b', t', l, c, flow, hend, hshows, htaken, ⟨rfl, rfl, rfl⟩, hready, hshows', hlogin,
    hlogin', hlength⟩

/-! ## Starting again -/

variable {a b b' c : Account} {m : Metadata} {t t' : List Event} {l : Program LinkExit}
  {result : Except SessionError Unit}

/-- A session that is started again, with nobody logging in or out since its last run ended, holds every
logout token a second time when it becomes ready, as far as there is room. The tokens stay what they
were exactly if there were none, or no room. -/
theorem restarted_tokens_iff
    (hend : EndsReady lawful (holding (restorable m ≠ [])) still a t result b) (ha : Capped a)
    (hshows : Shows a.profile m t) (htaken : ∀ e ∈ t, Taken e) (hb : still.may b b')
    (hready : BecomesReady still still b' t' l c)
    (hshows' : Shows b'.profile (metadataAfter a.profile m t) t') :
    ∃ flow flow', b.login = .free flow ∧ c.login = .free flow' ∧
      flow'.tokens = flow.tokens ++
        flow.tokens.take (LoginFlow.maxTokens - flow.tokens.length) ∧
      (flow'.tokens = flow.tokens ↔
        flow.tokens = [] ∨ LoginFlow.maxTokens ≤ flow.tokens.length) := by
  obtain ⟨flow, hlogin, -, htokens, hhashes⟩ := hend.stored ha hshows htaken
  obtain ⟨-, -, hlogin', -⟩ := hready.restores hshows' (hb.1.trans hlogin) hhashes
  rw [htokens] at hlogin'
  exact ⟨flow, _, hlogin, hlogin', rfl, flow.tokens_restoreTokens_self_iff⟩

/-- A logout token that is held when a session is stopped is there twice when it is ready again. -/
theorem tokens_restored_twice :
    ¬ ∀ (a b b' c : Account) (m : Metadata) (t t' : List Event) (l : Program LinkExit)
      (result : Except SessionError Unit),
      EndsReady lawful (holding (restorable m ≠ [])) still a t result b → Capped a →
        Shows a.profile m t → (∀ e ∈ t, Taken e) → still.may b b' →
        BecomesReady still still b' t' l c → Shows b'.profile (metadataAfter a.profile m t) t' →
        ∃ flow flow', b.login = .free flow ∧ c.login = .free flow' ∧
          flow'.tokens = flow.tokens := by
  intro h
  obtain ⟨t, b, b', t', l, c, flow, hend, hshows, htaken, hb, hready, hshows', hlogin, hlogin',
    hlength⟩ := exists_restart
  obtain ⟨flow₁, flow₂, h₁, h₂, hsame⟩ :=
    h newAccount b b' c oneEach t t' l _ hend capped_newAccount hshows htaken hb hready hshows'
  rw [hlogin] at h₁
  rw [hlogin'] at h₂
  cases h₁
  cases h₂
  exact LoginFlow.tokens_restoreTokens_self_ne hlength hsame

/-- One logout token becomes two. -/
theorem restarted_tokens_iff_oneEach : ∃ t b b' t' l c,
    EndsReady lawful (holding (restorable oneEach ≠ [])) still newAccount t (.ok ()) b ∧
    Capped newAccount ∧ Shows newAccount.profile oneEach t ∧ (∀ e ∈ t, Taken e) ∧ still.may b b' ∧
    BecomesReady still still b' t' l c ∧
    Shows b'.profile (metadataAfter newAccount.profile oneEach t) t' ∧
    ∃ flow flow', b.login = .free flow ∧ c.login = .free flow' ∧ flow.tokens.length = 1 ∧
      flow'.tokens = flow.tokens ++ flow.tokens ∧ flow'.tokens ≠ flow.tokens := by
  obtain ⟨t, b, b', t', l, c, flow, hend, hshows, htaken, hb, hready, hshows', hlogin, -,
    hlength⟩ := exists_restart
  obtain ⟨flow₁, flow', h₁, hlogin', htokens, hsame⟩ :=
    restarted_tokens_iff hend capped_newAccount hshows htaken hb hready hshows'
  rw [hlogin] at h₁
  cases h₁
  refine ⟨t, b, b', t', l, c, hend, capped_newAccount, hshows, htaken, hb, hready, hshows', flow,
    flow', hlogin, hlogin', hlength, ?_, fun h => ?_⟩
  · rw [htokens, List.take_of_length_le (by rw [hlength]; decide)]
  · exact LoginFlow.tokens_restoreTokens_self_ne hlength
      (flow.tokens_restoreTokens_self_iff.2 (hsame.1 h))

/-- A fresh session that is started on the metadata of a run that became ready and has ended holds, when
it becomes ready, the logout tokens that were held at the end of that run, and the access hashes of
users, but for those that the server's answer to who is signed in has brought. Each of the two runs works
for one profile throughout, so what it stores and what it reads is all in one place. A run that crashes
while it drives the connection (`RunOutcome.crashed`) is left out: it comes down without wrapping up, and
stores nothing. -/
theorem fresh_session_restores
    (hend : EndsReady lawful (holding (restorable m ≠ [])) still a t result b) (ha : Capped a)
    (hshows : Shows a.profile m t) (htaken : ∀ e ∈ t, Taken e) {flow₀ : LoginFlow}
    (hlogin₀ : b'.login = .free flow₀) (htokens₀ : flow₀.tokens = [])
    (hready : BecomesReady still still b' t' l c)
    (hshows' : Shows b'.profile (metadataAfter a.profile m t) t') :
    (∃ flow flow', b.login = .free flow ∧ c.login = .free flow' ∧ flow'.tokens = flow.tokens) ∧
    ∃ answer, .answered (.call (.getUsers [.self])) answer ∈ t' ∧ ∀ id,
      let learnt := (Pipeline.learn (.getUsers [.self]) answer b').peers.find? ⟨.user, id⟩
      (learnt = none → c.peers.find? ⟨.user, id⟩ = b.peers.find? ⟨.user, id⟩) ∧
      ∀ hash, learnt = some hash → c.peers.find? ⟨.user, id⟩ = some hash := by
  obtain ⟨flow, hlogin, hlength, htokens, hhashes⟩ := hend.stored ha hshows htaken
  obtain ⟨answer, hanswer, hlogin', hpeers', -⟩ := hready.restores hshows' hlogin₀ hhashes
  rw [htokens] at hlogin'
  refine ⟨⟨flow, _, hlogin, hlogin', ?_⟩, answer, hanswer, fun id => ?_⟩
  · rw [LoginFlow.restoreTokens, htokens₀, List.nil_append, List.length_nil, Nat.sub_zero,
      List.take_of_length_le hlength]
  · have hfound : c.peers.find? ⟨.user, id⟩ =
        ((Pipeline.learn (.getUsers [.self]) answer b').peers.find? ⟨.user, id⟩).or
          (b.peers.find? ⟨.user, id⟩) := by
      rw [hpeers', PeerDirectory.find?_restoreUsers,
        PeerDirectory.lookupEntry_ofList_backupUsers]
    refine ⟨fun hnone => ?_, fun hash hsome => ?_⟩
    · rw [hfound, hnone, Option.none_or]
    · rw [hfound, hsome, Option.some_or]

/-- A fresh session has the token and the hash of one that was stopped. -/
theorem fresh_session_restores_oneEach : ∃ t b t' l c,
    EndsReady lawful (holding (restorable oneEach ≠ [])) still newAccount t (.ok ()) b ∧
    Capped newAccount ∧ Shows newAccount.profile oneEach t ∧ (∀ e ∈ t, Taken e) ∧
    newAccount.login = .free {} ∧ ({} : LoginFlow).tokens = [] ∧
    BecomesReady still still newAccount t' l c ∧
    Shows newAccount.profile (metadataAfter newAccount.profile oneEach t) t' ∧
    (∃ flow flow', b.login = .free flow ∧ c.login = .free flow' ∧ flow.tokens.length = 1 ∧
      flow'.tokens = flow.tokens) ∧
    c.peers.find? ⟨.user, 5⟩ = some 50 := by
  obtain ⟨t, b, flow, users, hend, hshows, htaken, hlogin, hlength, hhash, htokens, hhashes⟩ :=
    exists_stop
  have hsome : restorable (metadataAfter newAccount.profile oneEach t) ≠ [] := by
    rw [htokens]
    exact List.ne_nil_of_length_eq_add_one hlength
  obtain ⟨t', l, c, hready, hshows', -, hunanswered⟩ :=
    exists_start still still (a := newAccount) rfl rfl hsome hhashes
  obtain ⟨⟨flow₁, flow', h₁, hlogin', hsame⟩, answer, hanswer, hfound⟩ :=
    fresh_session_restores hend capped_newAccount hshows htaken rfl rfl hready hshows'
  rw [hlogin] at h₁
  cases h₁
  cases hunanswered answer hanswer
  exact ⟨t, b, t', l, c, hend, capped_newAccount, hshows, htaken, rfl, rfl, hready, hshows',
    ⟨flow, flow', hlogin, hlogin', hlength, hsame⟩, ((hfound 5).1 rfl).trans hhash⟩

end Session

end Telebridge
