import Telebridge.Login.Steps
import Telebridge.Proofs.Account.DirectoryLog
import Telebridge.Proofs.Login.Bystanders
set_option autoImplicit false

/-! # Signing in

To sign in is all or nothing. A step that fails leaves the login flow as it was, wherever it fails, and
signs the account out only if the server revoked its authorization. A step that succeeds settles the code
on its way, publishes the user and files it in the directory (`signIn_all_or_nothing`). -/

namespace Telebridge

/-! ## What others get to know -/

/-- Every subscriber is offered the user who signs in. -/
theorem AuthSignal.WellFormed.pending_setUser {s : AuthSignal} (hs : s.WellFormed) (user : Option User)
    {id : SubscriptionId} (hid : id ∈ s.subscribers) :
    ((s.setUser user).mailbox id).pending = some (AuthEvent.ofUser user) := by
  have hbox : (s.setUser user).mailbox id = offer (AuthEvent.ofUser user) (s.mailbox id) :=
    (mailbox_broadcast (by exact hs.registered) id).trans (if_pos hid)
  rw [hbox, offer]

/-- A user that is listed alone is found. -/
theorem PeerDirectory.findUser?_apply (d : PeerDirectory) (u : User) :
    (d.apply [.user u] []).findUser? u.id = some u := by
  simp [apply, applyUser, saveUsers, findUser?, Table.insertAll]

/-- So is the access hash that it carries. -/
theorem PeerDirectory.find?_apply_user (d : PeerDirectory) {u : User} {hash : Int64}
    (h : u.accessHash = some hash) : (d.apply [.user u] []).find? ⟨.user, u.id⟩ = some hash := by
  refine find?_apply_of_mem (hash_user_mem_batchEntries.2 ⟨u, List.mem_singleton.2 rfl, rfl, h⟩) ?_
  intro v hv
  obtain ⟨u', hu', -, hv⟩ := hash_user_mem_batchEntries.1 hv
  cases List.mem_singleton.1 hu'
  exact Option.some.inj (hv.symm.trans h)

namespace Login

open Program Pipeline

variable {R : Others} {flow : LoginFlow} {a b x : Account} {t u : List Event}

/-! ## Steps -/

/-- How a step that signs in ends. -/
inductive Ends (flow : LoginFlow) (a : Account) (t : List Event) : Step Authorization → Account → Prop
  | failed {e : LoginError} {b : Account} (heeds : Heeds t a.signal b.signal) :
      Ends flow a t (.error e, flow) b
  | opened {session : Authorization} {now : FileName.Moment} {s : AuthSignal} {d : PeerDirectory}
      {b : Account} (before : a.signal.Announces [] s)
      (after : (s.setUser session.user.user?).Announces [] b.signal)
      (peers : b.peers = d.apply [session.user] []) :
      Ends flow a t (.ok session, { flow with request := none, signedInAt := some now }) b

theorem Ends.after_silence {r : Step Authorization} (ht : ¬ Revoked t)
    (h : a.signal.Announces [] x.signal) (hends : Ends flow x u r b) : Ends flow a (t ++ u) r b := by
  cases hends with
  | failed heeds => exact .failed ((Heeds.of_silence ht h).append heeds)
  | opened before after peers => exact .opened (h.trans before) after peers

/-- A failure changes nothing more. -/
theorem ends_of_failure {e : LoginError} {r : Step Authorization} (hR : Bystanders R)
    (hheeds : Heeds t a.signal x.signal) (h : Run R (.done (.error e, flow)) x u (.done r) b) :
    Ends flow a (t ++ u) r b := by
  obtain ⟨rfl, rfl, hb⟩ := Run.done_iff.1 h
  exact .failed (hheeds.append (.of_silence not_revoked_nil (hR.silent _ _ hb)))

/-- The server's authorization opens a session, and its demand to sign up is a failure. No call is
made. -/
theorem commit_done {reply : AuthorizationReply} {r : Step Authorization} (hR : Bystanders R)
    (hpeers : ∀ a b, R.may a b → b.peers = a.peers) (h : Run R (commit flow reply) a t (.done r) b) :
    calls t = [] ∧ Ends flow a t r b := by
  cases reply with
  | signUpRequired terms =>
    have hnothing : Heeds [] a.signal a.signal := .of_silence not_revoked_nil (.refl a.signal)
    exact ⟨by rw [(Run.done_iff.1 h).1, calls_nil], ends_of_failure hR hnothing h⟩
  | authorized session =>
    obtain ⟨now, u, a₁, ha₁, rfl, h₁⟩ := Run.external_bind_iff.1 h
    obtain ⟨a₂, ha₂, h₂⟩ := Run.update_bind_iff.1 h₁
    obtain ⟨a₃, ha₃, h₃⟩ := Run.update_bind_iff.1 h₂
    obtain ⟨rfl, rfl, hb⟩ := Run.done_iff.1 h₃
    have hfiled := hR.silent _ _ ha₃
    have hpublished := hR.silent _ _ hb
    have hbefore : a.signal.Announces [] a₃.signal :=
      ((hR.silent _ _ ha₁).trans (hR.silent _ _ ha₂)).trans hfiled
    have hknown : b.peers = a₂.peers.apply [session.user] [] := (hpeers _ _ hb).trans (hpeers _ _ ha₃)
    exact ⟨rfl, .opened hbefore hpublished hknown⟩

/-- A call for an authorization: the one that comes is committed, and without one the step fails. -/
theorem ends_of_call {request : Request}
    {f : Except CallError request.expected.Value → Program (Step Authorization)}
    {r : Step Authorization} (hR : Bystanders R) (hu : request.expected ≠ .updates)
    (hok : ∀ v x u, Run R (f (.ok v)) x u (.done r) b → Ends flow x u r b)
    (herror : ∀ e, ∃ e', f (.error e) = .done (.error e', flow))
    (h : Run R (Pipeline.call request >>= f) a t (.done r) b) (ht : ∀ e ∈ t, e.Typed) :
    Ends flow a t r b := by
  obtain ⟨reply, t₁, t₂, x, rfl, hcall, hrest⟩ := h.bind_done
  obtain ⟨answer, rfl, rfl, hheeds⟩ :=
    hR.call_done hu hcall fun e he => ht e (List.mem_append_left _ he)
  cases hout : outcome request answer with
  | ok v =>
    rw [hout] at hrest
    have hquiet := not_revoked_of_outcome hout
    exact (hok v x t₂ hrest).after_silence hquiet (hheeds.silent hquiet)
  | error e =>
    obtain ⟨e', hfailure⟩ := herror e
    rw [hout, hfailure] at hrest
    exact ends_of_failure hR hheeds hrest

theorem signInStep_done {code : String} {r : Step Authorization} (hR : Bystanders R)
    (hpeers : ∀ a b, R.may a b → b.peers = a.peers)
    (h : Run R (signInStep code flow) a t (.done r) b) (ht : ∀ e ∈ t, e.Typed) : Ends flow a t r b := by
  unfold signInStep at h
  cases hrequest : flow.request with
  | none =>
    rw [hrequest] at h
    exact ends_of_failure hR (t := []) (.of_silence not_revoked_nil (.refl a.signal)) h
  | some pending =>
    rw [hrequest] at h
    refine ends_of_call hR (by simp [Request.expected])
      (fun v x u hcommit => (commit_done hR hpeers hcommit).2) (fun e => ?_) h ht
    dsimp only
    split
    · exact ⟨_, rfl⟩
    · exact ⟨_, rfl⟩

/-- The proof is had without a revocation, or not at all. -/
theorem passwordProof_done {secret : String} {r : Except LoginError PasswordProof} (hR : Bystanders R)
    (h : Run R (passwordProof secret) a t (.done r) b) (ht : ∀ e ∈ t, e.Typed) :
    Heeds t a.signal b.signal ∧ ∀ proof, r = .ok proof → ¬ Revoked t := by
  obtain ⟨reply, t₁, t₂, a₁, rfl, hcall, hrest⟩ := h.bind_done
  obtain ⟨answer, rfl, rfl, hheeds⟩ :=
    hR.call_done (by decide) hcall fun e he => ht e (List.mem_append_left _ he)
  cases hout : outcome .getPassword answer with
  | error e =>
    simp only [hout] at hrest
    obtain ⟨rfl, rfl, hb⟩ := Run.done_iff.1 hrest
    refine ⟨hheeds.append (.of_silence not_revoked_nil (hR.silent _ _ hb)), ?_⟩
    rintro _ ⟨⟩
  | ok description =>
    have hquiet := not_revoked_of_outcome hout
    -- whatever is done with the description, nobody is called
    have hrest : calls t₂ = [] ∧ a₁.signal.Announces [] b.signal := by
      simp only [hout] at hrest
      split at hrest
      · obtain ⟨rfl, -, hb⟩ := Run.done_iff.1 hrest
        exact ⟨rfl, hR.silent _ _ hb⟩
      · obtain ⟨secret, u, a₂, ha₂, rfl, hdone⟩ := Run.external_bind_iff.1 hrest
        obtain ⟨rfl, -, hb⟩ := Run.done_iff.1 hdone
        exact ⟨rfl, (hR.silent _ _ ha₂).trans (hR.silent _ _ hb)⟩
    have hsilent := not_revoked_of_calls hrest.1
    refine ⟨hheeds.append (.of_silence hsilent hrest.2), fun _ _ => ?_⟩
    rw [revoked_append, not_or]
    exact ⟨hquiet, hsilent⟩

theorem passwordStep_done {secret : String} {r : Step Authorization} (hR : Bystanders R)
    (hpeers : ∀ a b, R.may a b → b.peers = a.peers)
    (h : Run R (passwordStep secret flow) a t (.done r) b) (ht : ∀ e ∈ t, e.Typed) :
    Ends flow a t r b := by
  obtain ⟨proof, t₁, t₂, x, rfl, hproof, hrest⟩ := h.bind_done
  obtain ⟨hheeds, hquiet⟩ :=
    passwordProof_done hR hproof fun e he => ht e (List.mem_append_left _ he)
  cases proof with
  | error e => exact ends_of_failure hR hheeds hrest
  | ok proof =>
    have hquiet := hquiet proof rfl
    refine Ends.after_silence hquiet (hheeds.silent hquiet) ?_
    refine ends_of_call hR (by simp [Request.expected])
      (fun v x u hcommit => (commit_done hR hpeers hcommit).2) (fun e => ?_) hrest
      fun e he => ht e (List.mem_append_right _ he)
    dsimp only
    split
    · exact ⟨_, rfl⟩
    · exact ⟨_, rfl⟩

/-- A request for a code is one call, and fails if that does. -/
theorem requestCode_done {phone : String} {r : Except CallError SentCode}
    (h : Run R (requestCode flow phone) a t (.done r) b) (ht : ∀ e ∈ t, e.Typed) :
    ∃ request answer, t = [.answered (.call request) answer] ∧ ∀ e, answer = .error e → r = .error e := by
  unfold requestCode at h
  cases hrequest : flow.request with
  | some pending =>
    rw [hrequest] at h
    obtain ⟨answer, -, -, rfl, rfl, -⟩ := Run.typed_call_done (by simp [Request.expected]) h ht
    refine ⟨_, answer, rfl, ?_⟩
    rintro e rfl
    rfl
  | none =>
    rw [hrequest] at h
    obtain ⟨a₁, -, hcall⟩ := Run.read_bind_iff.1 h
    obtain ⟨answer, -, -, rfl, rfl, -⟩ := Run.typed_call_done (by simp [Request.expected]) hcall ht
    refine ⟨_, answer, rfl, ?_⟩
    rintro e rfl
    rfl

/-- If the call for a code fails, so does the step, and only the moment of the request is new. -/
theorem sendCodeStep_done {phone : String} {r : Step SentCode} (hR : Bystanders R)
    (hpeers : ∀ a b, R.may a b → b.peers = a.peers)
    (h : Run R (sendCodeStep phone flow) a t (.done r) b) (ht : ∀ e ∈ t, e.Typed) {request : Request}
    {e : CallError} (hcall : (request, .error e) ∈ calls t) :
    ∃ now, r = (.error (.call e), { flow with requestedAt := some now }) := by
  obtain ⟨now, u, a₁, -, rfl, h₁⟩ := Run.external_bind_iff.1 h
  obtain ⟨reply, t₁, t₂, a₂, rfl, hrequest, hrest⟩ := h₁.bind_done
  obtain ⟨request', answer, rfl, hanswer⟩ := requestCode_done hrequest fun e he =>
    ht e (List.mem_cons_of_mem _ (List.mem_append_left _ he))
  -- the call for the code is the only one
  have honly : calls t₂ = [] := by
    cases reply with
    | error e => rw [(Run.done_iff.1 hrest).1, calls_nil]
    | ok sent =>
      cases sent with
      | code code => rw [(Run.done_iff.1 hrest).1, calls_nil]
      | success reply =>
        obtain ⟨⟨committed, flow'⟩, t₃, t₄, a₃, rfl, hcommit, hdone⟩ := hrest.bind_done
        have hend : t₄ = [] := by cases committed <;> exact (Run.done_iff.1 hdone).1
        rw [hend, List.append_nil]
        exact (commit_done hR hpeers hcommit).1
  have herror : answer = .error e := by
    have hcalls : calls (.answered .now now :: ([.answered (.call request') answer] ++ t₂)) =
        (request', answer) :: calls t₂ := rfl
    rw [hcalls, honly, List.mem_singleton] at hcall
    exact (congrArg Prod.snd hcall).symm
  obtain rfl := hanswer e herror
  exact ⟨now, (Run.done_iff.1 hrest).2.1.symm⟩

/-! ## The operations -/

/-- The two ways to a session. -/
inductive Credential where
  | code (text : String)
  | password (secret : String)

/-- Signs in. -/
def Credential.signIn : Credential → Program (Except LoginError Authorization)
  | .code text => Login.signIn text
  | .password secret => Login.password secret

/-- The step that signs in. -/
theorem Credential.signIn_done {c : Credential} {r : Except LoginError Authorization}
    (hR : Bystanders R) (hpeers : ∀ a b, R.may a b → b.peers = a.peers) (ha : a.login = .free flow)
    (h : Run R c.signIn a t (.done r) b) (ht : ∀ e ∈ t, e.Typed) :
    ∃ flow' x y, Ends flow x t (r, flow') y ∧ b.login = .free flow' ∧ b.peers = y.peers ∧
      a.signal.Announces [] x.signal ∧ y.signal.Announces [] b.signal := by
  have hends {step : LoginFlow → Program (Step Authorization)}
      (hstep : ∀ {flow a b r}, Run R (step flow) a t (.done r) b → Ends flow a t r b)
      (h : Run R (withLogin step) a t (.done r) b) :
      ∃ flow' x y, Ends flow x t (r, flow') y ∧ b.login = .free flow' ∧ b.peers = y.peers ∧
        a.signal.Announces [] x.signal ∧ y.signal.Announces [] b.signal := by
    obtain ⟨flow', x, y, hrun, hlogin, -, hb, hx, hy⟩ := hR.withLogin_done ha h
    have hknown := hpeers _ _ hb
    exact ⟨flow', _, y, hstep hrun, hlogin, hknown, hx, hy⟩
  cases c with
  | code text => exact hends (fun h => signInStep_done hR hpeers h ht) h
  | password secret => exact hends (fun h => passwordStep_done hR hpeers h ht) h

/-- Whatever the server answers, and whatever subscribers do meanwhile. If a code or a password does not
lead to a session, whatever the reason, the login flow is as before, and so is who is signed in, unless
the server answered that the authorization is revoked: then nobody is. If a request for a code fails at
the server, only the moment of the request is new. If a code or a password leads to a session of a user,
no code is on its way, the session has a beginning, the user is signed in, every subscriber was offered
this news, and the directory has a snapshot of the user, with the access hash that came with it. -/
theorem signIn_all_or_nothing (hR : Bystanders R) (hpeers : ∀ a b, R.may a b → b.peers = a.peers)
    (hs : a.signal.WellFormed) (ha : a.login = .free flow) (ht : ∀ e ∈ t, e.Typed) :
    (∀ (c : Credential) (e : LoginError), Run R c.signIn a t (.done (.error e)) b →
      b.login = .free flow ∧ (Revoked t → b.signal.user = none) ∧
        (¬ Revoked t → b.signal.user = a.signal.user)) ∧
    (∀ (phone : String) (r : Except LoginError SentCode) (request : Request) (e : CallError),
      Run R (sendCode phone) a t (.done r) b → (request, .error e) ∈ calls t →
        r = .error (.call e) ∧ ∃ now, b.login = .free { flow with requestedAt := some now }) ∧
    (∀ (c : Credential) (session : Authorization) (u : User),
      Run R c.signIn a t (.done (.ok session)) b → session.user = .user u →
        (∃ now, b.login = .free { flow with request := none, signedInAt := some now }) ∧
        b.signal.user = some u ∧
        (∃ s, a.signal.Announces [] s ∧ (s.setUser (some u)).Announces [] b.signal ∧
          ∀ id ∈ s.subscribers, ((s.setUser (some u)).mailbox id).pending = some (.signedIn u)) ∧
        b.peers.findUser? u.id = some u ∧
        ∀ hash, u.accessHash = some hash → b.peers.find? ⟨.user, u.id⟩ = some hash) := by
  refine ⟨fun c e h => ?_, fun phone r request e h hcall => ?_, fun c session u h hu => ?_⟩
  · obtain ⟨flow', x, y, hends, hlogin, -, hx, hy⟩ := c.signIn_done hR hpeers ha h ht
    cases hends with
    | failed heeds =>
      refine ⟨hlogin, fun hrevoked => ?_, fun hquiet => ?_⟩
      · exact hy.user_eq.trans (heeds.revoked hrevoked).user
      · exact ((hx.trans (heeds.silent hquiet)).trans hy).user_eq
  · obtain ⟨flow', x, y, hrun, hlogin, -⟩ := hR.withLogin_done ha h
    obtain ⟨now, hstep⟩ := sendCodeStep_done hR hpeers hrun ht hcall
    obtain ⟨rfl, rfl⟩ := Prod.mk.inj hstep
    exact ⟨rfl, now, hlogin⟩
  · obtain ⟨flow', x, y, hends, hlogin, hknown, hx, hy⟩ := c.signIn_done hR hpeers ha h ht
    cases hends with
    | @opened _ now s d _ before after peers =>
      have hbefore : a.signal.Announces [] s := hx.trans before
      have hafter : (s.setUser (some u)).Announces [] b.signal := by
        have h := after.trans hy
        rwa [hu] at h
      rw [hknown, peers, hu]
      refine ⟨⟨now, hlogin⟩, hafter.user_eq, ⟨s, hbefore, hafter, fun id hid => ?_⟩,
        d.findUser?_apply u, fun hash hhash => d.find?_apply_user hhash⟩
      exact (hs.announces hbefore).pending_setUser (some u) hid

/-! ## A login that succeeds, and two that fail -/

/-- The login flow of an account that waits for a code. -/
def waiting : LoginFlow := { phone := "+1555", request := some ⟨.app 5, "abc", none, none⟩ }

/-- The account, with one subscriber. -/
def awaiting : Account :=
  { config := {}, profile := 0, login := .free waiting, signal := AuthSignal.initial.subscribe.2 }

/-- Who is going to sign in. -/
def newcomer : User := { id := 7, accessHash := some 9 }

/-- The account when the user is signed in already. -/
def present : Account := { awaiting with signal := awaiting.signal.setUser (some newcomer) }

/-- The code is accepted. -/
def accepted : List Event :=
  [.answered (.call (.signIn "+1555" "abc" (some "12345")))
    (.ok ⟨.authorization, AuthorizationReply.authorized ⟨false, .user newcomer⟩⟩),
    .answered .now default]

/-- The authorization is revoked when the password is to be proved. -/
def expired : List Event :=
  [.answered (.call .getPassword) (.error (.rpc ⟨401, "SESSION_REVOKED", none⟩))]

/-- No answer to the request for another code. -/
def unanswered : List Event :=
  [.answered .now default, .answered (.call (.resendCode "+1555" "abc")) (.error .timeout)]

theorem run_accepted : ∃ b, Run Others.nobody (Credential.code "12345").signIn awaiting accepted
    (.done (.ok ⟨false, .user newcomer⟩)) b := by
  let after : Account := { awaiting with
    login := .taken
    peers := awaiting.peers.apply [.user newcomer] []
    signal := awaiting.signal.setUser (some newcomer) }
  have hcommit : Run Others.nobody (commit waiting (.authorized ⟨false, .user newcomer⟩))
      { awaiting with login := .taken } [.answered .now default] (.done (.ok ⟨false, .user newcomer⟩,
        { waiting with request := none, signedInAt := some default })) after := by
    refine Run.external_bind_iff.2 ⟨default, [], _, rfl, rfl, ?_⟩
    refine Run.update_bind_iff.2 ⟨_, rfl, Run.update_bind_iff.2 ⟨_, rfl, ?_⟩⟩
    exact Run.done_iff.2 ⟨rfl, rfl, rfl⟩
  have hstep : Run Others.nobody (signInStep "12345" waiting) { awaiting with login := .taken } accepted
      (.done (.ok ⟨false, .user newcomer⟩,
        { waiting with request := none, signedInAt := some default })) after :=
    (Run.of_call { awaiting with login := .taken } rfl).bind hcommit
  exact ⟨_, Run.of_withLogin (a := awaiting) rfl hstep⟩

theorem run_expired : ∃ b, Run Others.nobody (Credential.password "secret").signIn present expired
    (.done (.error (.call (.rpc ⟨401, "SESSION_REVOKED", none⟩)))) b := by
  have hanswer : Exchange .getPassword (.error (.rpc ⟨401, "SESSION_REVOKED", none⟩)) expired := rfl
  have hcall := Run.of_exchange (R := Others.nobody) { present with login := .taken } hanswer
  have hproof : Run Others.nobody (passwordProof "secret") { present with login := .taken } (expired ++ [])
      (.done (.error (.call (.rpc ⟨401, "SESSION_REVOKED", none⟩)))) _ := hcall.bind (.refl _ _)
  have hstep : Run Others.nobody (passwordStep "secret" waiting) { present with login := .taken } expired
      (.done (.error (.call (.rpc ⟨401, "SESSION_REVOKED", none⟩)), waiting)) _ :=
    hproof.bind (.refl _ _)
  exact ⟨_, Run.of_withLogin (a := present) rfl hstep⟩

theorem run_unanswered : ∃ b, Run Others.nobody (sendCode "+1555") awaiting unanswered
    (.done (.error (.call .timeout))) b := by
  have hanswer : Exchange (.resendCode "+1555" "abc") (.error .timeout)
    [.answered (.call (.resendCode "+1555" "abc")) (.error .timeout)] := rfl
  have hcall := Run.of_exchange (R := Others.nobody) { awaiting with login := .taken } hanswer
  have hstep : Run Others.nobody (sendCodeStep "+1555" waiting) { awaiting with login := .taken } unanswered
      (.done (.error (.call .timeout), { waiting with requestedAt := some default })) _ :=
    Run.external_bind_iff.2 ⟨default, _, _, rfl, rfl, hcall.bind (.refl _ _)⟩
  exact ⟨_, Run.of_withLogin (a := awaiting) rfl hstep⟩

/-- The code leads to a session, the revoked authorization ends the one that is there, and of a request
without an answer only the moment stays. -/
theorem signIn_all_or_nothing_runs :
    Bystanders Others.nobody ∧ (∀ a b, Others.nobody.may a b → b.peers = a.peers) ∧
    awaiting.signal.WellFormed ∧ present.signal.WellFormed ∧
    awaiting.login = .free waiting ∧ present.login = .free waiting ∧
    ((∀ e ∈ accepted, e.Typed) ∧ ∃ b, Run Others.nobody (Credential.code "12345").signIn awaiting accepted
        (.done (.ok ⟨false, .user newcomer⟩)) b ∧
      b.signal.user = some newcomer ∧ b.peers.find? ⟨.user, 7⟩ = some 9) ∧
    ((∀ e ∈ expired, e.Typed) ∧ Revoked expired ∧ present.signal.user = some newcomer ∧
      ∃ e b, Run Others.nobody (Credential.password "secret").signIn present expired
        (.done (.error e)) b ∧ b.login = .free waiting ∧ b.signal.user = none) ∧
    ((∀ e ∈ unanswered, e.Typed) ∧ ∃ b, Run Others.nobody (sendCode "+1555") awaiting unanswered
        (.done (.error (.call .timeout))) b ∧
      ∃ now, b.login = .free { waiting with requestedAt := some now }) := by
  have hpeers : ∀ a b, Others.nobody.may a b → b.peers = a.peers := by
    rintro a _ rfl
    rfl
  have hawaiting : awaiting.signal.WellFormed := AuthSignal.wellFormed_initial.subscribe
  have hpresent : present.signal.WellFormed := hawaiting.setUser (some newcomer)
  have haccepted : ∀ e ∈ accepted, e.Typed := by
    rw [accepted, List.forall_mem_cons, List.forall_mem_singleton]
    exact ⟨rfl, trivial⟩
  have hexpired : ∀ e ∈ expired, e.Typed := by simp [expired, Event.Typed, Request.Accepts]
  have hunanswered : ∀ e ∈ unanswered, e.Typed := by simp [unanswered, Event.Typed, Request.Accepts]
  have hrevoked : Revoked expired := (revoked_answer ..).2 ⟨_, rfl, by decide⟩
  refine ⟨bystanders_nobody, hpeers, hawaiting, hpresent, rfl, rfl, ⟨haccepted, ?_⟩,
    ⟨hexpired, hrevoked, rfl, ?_⟩, hunanswered, ?_⟩
  · obtain ⟨b, hrun⟩ := run_accepted
    obtain ⟨-, -, hopened⟩ := signIn_all_or_nothing bystanders_nobody hpeers hawaiting rfl haccepted
    obtain ⟨-, huser, -, -, hhash⟩ := hopened _ _ newcomer hrun rfl
    exact ⟨b, hrun, huser, hhash 9 rfl⟩
  · obtain ⟨b, hrun⟩ := run_expired
    obtain ⟨hfailed, -⟩ := signIn_all_or_nothing bystanders_nobody hpeers hpresent rfl hexpired
    obtain ⟨hlogin, hout, -⟩ := hfailed _ _ hrun
    exact ⟨_, b, hrun, hlogin, hout hrevoked⟩
  · obtain ⟨b, hrun⟩ := run_unanswered
    obtain ⟨-, hunsent, -⟩ := signIn_all_or_nothing bystanders_nobody hpeers hawaiting rfl hunanswered
    obtain ⟨-, hnow⟩ := hunsent _ _ (.resendCode "+1555" "abc") .timeout hrun List.mem_cons_self
    exact ⟨b, hrun, hnow⟩

end Login

end Telebridge
