import Telebridge.Proofs.Login.Conduct
import Telebridge.Proofs.Program.Finished
set_option autoImplicit false

/-! # Codes and phone numbers

A code is good for the phone number that it was asked for. The login keeps the number and the code on
its way in two places, and sends them together when it signs in or gives the code up. The code is always
the latest one that the server sent. The number is the one that this code was asked for, unless a later
request for a code was answered by the demand to sign up: it replaces the number, but not the code
(`sent_pair_iff`), so a code can be sent with a number that it is not good for
(`code_sent_for_another_number`). -/

namespace Telebridge.Login

open Program Pipeline

/-! ## Commands -/

/-- What an account can be told to do about its login. -/
inductive Command where
  | sendCode (phone : String)
  | cancelCode
  | signIn (code : String)
  | password (secret : String)
  | logOut
  | restoreTokens (tokens : List ByteArray)

/-- Carries out a command; what it gives does not matter here. -/
def Command.run : Command → Program Unit
  | .sendCode phone => do let _ ← Login.sendCode phone
  | .cancelCode => Login.cancelCode
  | .signIn code => do let _ ← Login.signIn code
  | .password secret => do let _ ← Login.password secret
  | .logOut => do let _ ← Login.logOut
  | .restoreTokens tokens => Login.restoreTokens tokens

/-- What a step leaves of the login flow; its answer does not matter. -/
def forget {α : Type} (p : Program (α × LoginFlow)) : Program (Unit × LoginFlow) := do
  let (_, flow) ← p
  return ((), flow)

/-- The step of a command, between taking the login flow and putting it back. -/
def Command.step (flow : LoginFlow) : Command → Program (Unit × LoginFlow)
  | .sendCode phone => forget (sendCodeStep phone flow)
  | .cancelCode => cancelCodeStep flow
  | .signIn code => forget (signInStep code flow)
  | .password secret => forget (passwordStep secret flow)
  | .logOut => forget (logOutStep flow)
  | .restoreTokens tokens => return ((), flow.restoreTokens tokens)

/-- A login step whose answer is dropped. -/
theorem withLogin_bind_unit {α : Type} (step : LoginFlow → Program (α × LoginFlow)) :
    (withLogin step >>= fun _ => .done ()) = withLogin fun flow => forget (step flow) := by
  simp only [withLogin, forget, bind_eq_bind, bind_assoc, pure_eq_done, done_bind]

/-- To carry out a command is to carry out its step. -/
theorem Command.run_eq (c : Command) : c.run = withLogin fun flow => c.step flow := by
  cases c with
  | sendCode phone => exact withLogin_bind_unit (sendCodeStep phone)
  | cancelCode => rfl
  | signIn code => exact withLogin_bind_unit (signInStep code)
  | password secret => exact withLogin_bind_unit (passwordStep secret)
  | logOut => exact withLogin_bind_unit logOutStep
  | restoreTokens tokens => rfl

/-- Commands that were carried out, the latest first, with what each of them showed. -/
abbrev Past := List (Command × List Event)

/-- The commands of a past were carried out one after the other, from the one account to the other. -/
inductive CarriedOut (R : Others) (a₀ : Account) : Past → Account → Prop
  | start {a : Account} (h : R.may a₀ a) : CarriedOut R a₀ [] a
  | command {past : Past} {c : Command} {a b : Account} {t : List Event}
      (h : CarriedOut R a₀ past a) (hrun : Run R c.run a t (.done ()) b) :
      CarriedOut R a₀ ((c, t) :: past) b

/-! ## What is sent, and what is answered -/

/-- The phone number and the hash of a code that a request names together. -/
def pair? : Request → Option (String × String)
  | .signIn phone hash _ => some (phone, hash)
  | .cancelCode phone hash => some (phone, hash)
  | _ => none

/-- What the server says to a request for a code, which is one that promises a code. -/
def sentCode? (c : Call) : Option SentCode :=
  if c.1.expected = .sentCode then c.2.toOption.bind (Reply.value? .sentCode) else none

/-- What the server said to the requests for a code. -/
def sentCodes (t : List Event) : List SentCode :=
  (calls t).filterMap sentCode?

@[simp] theorem sentCodes_append (t u : List Event) :
    sentCodes (t ++ u) = sentCodes t ++ sentCodes u := by
  simp [sentCodes]

/-- The code that a command got, and the phone number that it asked for. -/
def got? : Command × List Event → Option (String × CodeRequest)
  | (.sendCode phone, t) => (sentCodes t).findSome? fun
    | .code code => some (phone, code)
    | .success _ => none
  | _ => none

/-- The phone number that a command asked a code for, if the answer was to sign up first. -/
def turnedAway? : Command × List Event → Option String
  | (.sendCode phone, t) => (sentCodes t).findSome? fun
    | .success (.signUpRequired _) => some phone
    | _ => none
  | _ => none

/-- The latest code, and the phone number that it was asked for. -/
def latestCode (past : Past) : Option (String × CodeRequest) :=
  past.findSome? got?

/-- The phone number that was last turned away since the latest code. -/
def turnedAwaySince (past : Past) : Option String :=
  (past.takeWhile fun c => (got? c).isNone).findSome? turnedAway?

/-- The phone number and the hash that belong together: those of the latest code. -/
def belonging (past : Past) : Option (String × String) :=
  (latestCode past).map fun (phone, code) => (phone, code.phoneCodeHash)

/-! ## What a command makes of the login flow -/

/-- The phone number and the code on its way after a command, by what the server said to its request for
a code. -/
inductive Moves (flow flow' : LoginFlow) : Command → List SentCode → Prop
  | code {phone : String} {code : CodeRequest} (hphone : flow'.phone = phone)
      (hrequest : flow'.request = some code) : Moves flow flow' (.sendCode phone) [.code code]
  | turnedAway {phone : String} {terms : Option String} (hphone : flow'.phone = phone)
      (hrequest : flow'.request = flow.request) :
      Moves flow flow' (.sendCode phone) [.success (.signUpRequired terms)]
  | kept {c : Command} (hphone : flow'.phone = flow.phone) (hrequest : flow'.request = flow.request) :
      Moves flow flow' c []
  | settled {c : Command} {sent : List SentCode} (hrequest : flow'.request = none) :
      Moves flow flow' c sent

/-- The code on its way is the latest one. The phone number is the one that this was asked for, or the
one that was turned away last. -/
def Paired (past : Past) (flow : LoginFlow) : Prop :=
  ∀ code, flow.request = some code → ∃ asked, latestCode past = some (asked, code) ∧
    flow.phone = (turnedAwaySince past).getD asked

/-- Every command keeps to this. -/
theorem Paired.cons {past : Past} {flow flow' : LoginFlow} {c : Command} {t : List Event}
    (h : Paired past flow) (hc : Moves flow flow' c (sentCodes t)) : Paired ((c, t) :: past) flow' := by
  intro code hcode
  generalize hsent : sentCodes t = sent at hc
  cases hc with
  | @code phone code' hphone hrequest =>
    obtain rfl : code' = code := Option.some.inj (hrequest.symm.trans hcode)
    have hgot : got? (.sendCode phone, t) = some (phone, code') := by simp [got?, hsent]
    exact ⟨phone, by simp [latestCode, hgot], by simp [turnedAwaySince, hgot, hphone]⟩
  | @turnedAway phone terms hphone hrequest =>
    have hgot : got? (.sendCode phone, t) = none := by simp [got?, hsent]
    have haway : turnedAway? (.sendCode phone, t) = some phone := by simp [turnedAway?, hsent]
    obtain ⟨asked, hlatest, -⟩ := h code (hrequest.symm.trans hcode)
    refine ⟨asked, by simpa [latestCode, hgot] using hlatest, ?_⟩
    simp [turnedAwaySince, hgot, haway, hphone]
  | kept hphone hrequest =>
    have hgot : got? (c, t) = none := by cases c <;> simp [got?, hsent]
    have haway : turnedAway? (c, t) = none := by cases c <;> simp [turnedAway?, hsent]
    obtain ⟨asked, hlatest, hasked⟩ := h code (hrequest.symm.trans hcode)
    refine ⟨asked, by simpa [latestCode, hgot] using hlatest, ?_⟩
    simpa [turnedAwaySince, hgot, haway, hphone] using hasked
  | settled hrequest =>
    rw [hrequest] at hcode
    cases hcode

/-! ## Steps -/

/-- The event sends no number with a code, and does not answer a request for one. -/
def Quiet (e : Event) : Prop :=
  ∀ c, call? e = some c → pair? c.1 = none ∧ sentCode? c = none

/-- A number is only sent with a code if they are those of the flow. -/
def Sends (flow : LoginFlow) : Environment := fun _ e =>
  ∀ c, call? e = some c → ∀ phone hash, pair? c.1 = some (phone, hash) →
    phone = flow.phone ∧ ∃ code, flow.request = some code ∧ code.phoneCodeHash = hash

variable {R : Others} {flow : LoginFlow}

theorem Quiet.sends {e : Event} (h : Quiet e) (t : List Event) : Sends flow t e := by
  intro c hc phone hash hpair
  rw [(h c hc).1] at hpair
  cases hpair

theorem sentCodes_quiet {t : List Event} (h : ∀ e ∈ t, Quiet e) : sentCodes t = [] := by
  rw [sentCodes, List.filterMap_eq_nil_iff]
  intro c hc
  obtain ⟨e, he, hcall⟩ := List.mem_filterMap.1 hc
  exact (h e he c hcall).2

/-- The event of anything but a call is quiet. -/
theorem quiet_of_no_call {e : Event} (h : call? e = none) : Quiet e :=
  asking_of_no_call h

/-- A part that is quiet sends nothing. -/
theorem quiet_safe {α : Type} {P : α → Prop} {p : Program α} {t : List Event} {a : Account}
    (hp : p.Conforms R (.keeping fun _ => True) (fun _ => True) Quiet) (hgives : p.Gives P) :
    Safe R .anything (Sends flow) (fun r t' _ => P r ∧ sentCodes t' = sentCodes t) p t a := by
  refine Safe.of_runs (fun _ _ _ => id) hp (fun _ _ _ he => he.sends _) ?_
  intro es r b hrun _ _ hes
  exact ⟨hrun.gives hgives, by rw [sentCodes_append, sentCodes_quiet hes, List.append_nil]⟩

/-- A call that names the pair of the flow, if any, and what follows it. -/
theorem call_bind_sends {α : Type} {Q : α → List Event → Account → Prop} {request : Request}
    {f : Except CallError request.expected.Value → Program α} {t : List Event} {a : Account}
    (hpair : ∀ phone hash, pair? request = some (phone, hash) →
      phone = flow.phone ∧ ∃ code, flow.request = some code ∧ code.phoneCodeHash = hash)
    (hf : ∀ answer t' a', sentCodes t' = sentCodes t ++ (sentCode? (request, answer)).toList →
      Safe R .anything (Sends flow) Q (f (outcome request answer)) t' a') :
    Safe R .anything (Sends flow) Q (call request >>= f) t a := by
  have hsends (answer : Except CallError Reply) (t : List Event) :
      Sends flow t (.answered (.call request) answer) := by
    rintro c hc
    cases hc
    exact hpair
  refine Safe.call (fun answer _ => hsends answer t) fun answer es a₁ a₂ _ _ hes _ => ⟨?_, ?_⟩
  · exact hes.allows (hsends answer t) fun t updates o => (quiet_of_no_call rfl).sends t
  · refine hf answer _ _ ?_
    rw [sentCodes_append, sentCodes, sentCodes, hes.calls_eq]
    simp only [List.filterMap_cons, List.filterMap_nil]
    cases sentCode? (request, answer) <;> rfl

/-- A command that makes no request for a code leaves the pair alone, or settles it. -/
def Leaves (flow flow' : LoginFlow) : Prop :=
  flow'.phone = flow.phone ∧ (flow'.request = flow.request ∨ flow'.request = none)

theorem Leaves.moves {flow' : LoginFlow} {c : Command} (h : Leaves flow flow') :
    Moves flow flow' c [] := by
  obtain ⟨hphone, hrequest | hrequest⟩ := h
  · exact .kept hphone hrequest
  · exact .settled hrequest

theorem leaves_of_signsIn {flow' : LoginFlow} (h : flow.SignsIn flow') : Leaves flow flow' := by
  cases h with
  | failed => exact ⟨rfl, .inl rfl⟩
  | opened now => exact ⟨rfl, .inr rfl⟩

theorem leaves_of_logsOut {flow' : LoginFlow} (h : flow.LogsOut flow') : Leaves flow flow' := by
  cases h <;> exact ⟨rfl, .inl rfl⟩

/-- A request for a code names no pair, and the caller gets what the server says to it. -/
theorem requestCode_bind_safe {α : Type} {Q : α → List Event → Account → Prop} (phone : String)
    {f : Except CallError SentCode → Program α} {t : List Event} {a : Account}
    (ht : sentCodes t = [])
    (hf : ∀ r t' a', sentCodes t' = r.toOption.toList → Safe R .anything (Sends flow) Q (f r) t' a') :
    Safe R .anything (Sends flow) Q (requestCode flow phone >>= f) t a := by
  unfold requestCode
  cases flow.request with
  | some pending =>
    refine call_bind_sends (by simp [pair?]) fun answer t' a' ht' => hf _ _ _ ?_
    rw [ht', ht]
    exact congrArg Option.toList (toOption_outcome (.resendCode phone _) answer).symm
  | none =>
    show Safe R .anything (Sends flow) Q (Program.read Account.config >>= fun config =>
      call (.sendCode phone config.apiId config.apiHash flow.codeSettings) >>= f) t a
    refine Safe.read fun a₁ _ => ?_
    refine call_bind_sends (by simp [pair?]) fun answer t' a' ht' => hf _ _ _ ?_
    rw [ht', ht]
    exact congrArg Option.toList (toOption_outcome (.sendCode phone _ _ _) answer).symm

theorem sendCodeStep_safe (phone : String) {a : Account} :
    Safe R .anything (Sends flow) (fun r t _ => Moves flow r.2 (.sendCode phone) (sentCodes t))
      (sendCodeStep phone flow) [] a := by
  refine Safe.external fun now a₁ _ _ => ⟨(quiet_of_no_call rfl).sends _, ?_⟩
  refine requestCode_bind_safe phone rfl fun r t a₂ ht => ?_
  cases r with
  | error e =>
    refine Safe.done fun b _ => ?_
    rw [ht]
    exact .kept rfl rfl
  | ok sent =>
    cases sent with
    | code code =>
      refine Safe.done fun b _ => ?_
      rw [ht]
      exact .code rfl rfl
    | success reply =>
      refine Safe.bind (quiet_safe (conforms_commit reply) (gives_commit reply)) ?_
      rintro ⟨r, flow'⟩ t' a₃ ⟨hreply, ht'⟩
      have hmoves : Moves flow flow' (.sendCode phone) (sentCodes t') := by
        rw [ht', ht]
        cases reply with
        | signUpRequired terms =>
          cases hreply
          exact .turnedAway rfl rfl
        | authorized session =>
          obtain ⟨now, hopened⟩ := hreply
          cases hopened
          exact .settled rfl
      cases r <;> exact Safe.done fun b _ => hmoves

theorem cancelCodeStep_safe {a : Account} :
    Safe R .anything (Sends flow) (fun r t _ => Moves flow r.2 .cancelCode (sentCodes t))
      (cancelCodeStep flow) [] a := by
  unfold cancelCodeStep
  cases hrequest : flow.request with
  | none => exact Safe.done fun b _ => .kept rfl rfl
  | some pending =>
    refine call_bind_sends (fun phone hash hpair => ?_) fun answer t a₁ _ => ?_
    · cases hpair
      exact ⟨rfl, pending, hrequest, rfl⟩
    · exact Safe.done fun b _ => .settled rfl

theorem signInStep_safe (code : String) {a : Account} :
    Safe R .anything (Sends flow) (fun r t _ => Moves flow r.2 (.signIn code) (sentCodes t))
      (signInStep code flow) [] a := by
  unfold signInStep
  cases hrequest : flow.request with
  | none => exact Safe.done fun b _ => .kept rfl rfl
  | some pending =>
    refine call_bind_sends (fun phone hash hpair => ?_) fun answer t a₁ ht => ?_
    · cases hpair
      exact ⟨rfl, pending, hrequest, rfl⟩
    · have hsent : sentCodes t = [] := ht
      cases outcome (.signIn flow.phone pending.phoneCodeHash (some (Text.trim code))) answer with
      | ok authorization =>
        refine (quiet_safe (conforms_commit authorization) (signsIn_commit authorization)).mono ?_
        rintro r t' b ⟨hsignsIn, ht'⟩
        rw [ht', hsent]
        exact (leaves_of_signsIn hsignsIn).moves
      | error e =>
        simp only
        split <;> exact Safe.done fun b _ => hsent ▸ .kept rfl rfl

/-! ## Runs -/

/-- A command sends the pair of the flow that it finds, if any, and leaves a flow with a pair that
belongs together or was turned away. -/
theorem Command.run_safe (c : Command) {a : Account} (hR : ∀ a b, R.may a b → b.login = a.login)
    (ha : a.login = .free flow) :
    Safe R .anything (Sends flow) (fun _ t b => ∃ flow', b.login = .free flow' ∧
      Moves flow flow' c (sentCodes t)) c.run [] a := by
  have hquiet {β : Type} {p : Program (β × LoginFlow)} {a : Account}
      (hconforms : p.Conforms R (.keeping fun _ => True) (fun _ => True) Quiet)
      (hleaves : p.Gives fun r => Leaves flow r.2) :
      Safe R .anything (Sends flow) (fun r t _ => Moves flow r.2 c (sentCodes t)) p [] a := by
    refine (quiet_safe hconforms hleaves).mono ?_
    rintro r t b ⟨hr, ht⟩
    rw [ht]
    exact hr.moves
  have hforget {β : Type} {p : Program (β × LoginFlow)} {a : Account}
      (hp : Safe R .anything (Sends flow) (fun r t _ => Moves flow r.2 c (sentCodes t)) p [] a) :
      Safe R .anything (Sends flow) (fun r t _ => Moves flow r.2 c (sentCodes t)) (forget p) [] a :=
    hp.bind fun r t a' hr => Safe.done fun b _ => hr
  rw [c.run_eq]
  refine Safe.withLogin (Q := fun _ flow' t => Moves flow flow' c (sentCodes t)) hR ha fun a => ?_
  cases c with
  | sendCode phone => exact hforget (sendCodeStep_safe phone)
  | cancelCode => exact cancelCodeStep_safe
  | signIn code => exact hforget (signInStep_safe code)
  | password secret =>
    exact hforget (hquiet (conforms_passwordStep secret (fun _ => ⟨rfl, rfl⟩) fun _ _ => ⟨rfl, rfl⟩)
      ((signsIn_passwordStep secret).mono fun _ => leaves_of_signsIn))
  | logOut =>
    exact hforget (hquiet (conforms_logOutStep fun _ => ⟨rfl, rfl⟩)
      (logsOut_logOutStep.mono fun _ => leaves_of_logsOut))
  | restoreTokens tokens => exact Safe.done fun b _ => .kept rfl rfl

/-- Between two commands the login is free, and the code on its way is the latest one. -/
theorem CarriedOut.paired {a₀ a : Account} {past : Past} (hR : ∀ a b, R.may a b → b.login = a.login)
    (h₀ : a₀.login = .free {}) (h : CarriedOut R a₀ past a) :
    ∃ flow, a.login = .free flow ∧ Paired past flow := by
  induction h with
  | start ha => exact ⟨{}, (hR _ _ ha).trans h₀, fun code hcode => by cases hcode⟩
  | @command past c a b t _ hrun ih =>
    obtain ⟨flow, hflow, hpaired⟩ := ih
    obtain ⟨-, hdone⟩ := c.run_safe hR hflow t _ b hrun (Environment.anything_allows _ _)
    obtain ⟨flow', hflow', hmoves⟩ := hdone () rfl
    exact ⟨flow', hflow', hpaired.cons hmoves⟩

/-- Whatever was done since the account is there, and whatever the server said: when a code is sent, to
sign in or to give it up, it is the latest code that the server has sent. The phone number sent with it
is the one that this code was asked for, unless another number was turned away since; then it is the
number that was turned away last. -/
theorem sent_pair_iff {a₀ a b : Account} {past : Past} {c : Command} {t : List Event}
    {q : Program Unit} (hR : ∀ a b, R.may a b → b.login = a.login) (h₀ : a₀.login = .free {})
    (h : CarriedOut R a₀ past a) (hrun : Run R c.run a t q b) {request : Request}
    {answer : Except CallError Reply} (hcall : (request, answer) ∈ calls t) {phone hash : String}
    (hpair : pair? request = some (phone, hash)) :
    ∃ asked, belonging past = some (asked, hash) ∧ phone = (turnedAwaySince past).getD asked ∧
      (belonging past = some (phone, hash) ↔
        ∀ other, turnedAwaySince past = some other → other = asked) := by
  obtain ⟨flow, hflow, hpaired⟩ := h.paired hR h₀
  obtain ⟨hsends, -⟩ := c.run_safe hR hflow t q b hrun (Environment.anything_allows _ _)
  obtain ⟨e, he, hcall⟩ := List.mem_filterMap.1 hcall
  have hsent : Sends flow [] e := hsends.forall (fun _ _ h => h) e he
  obtain ⟨rfl, code, hcode, rfl⟩ := hsent _ hcall phone hash hpair
  obtain ⟨asked, hlatest, hphone⟩ := hpaired code hcode
  have hbelonging : belonging past = some (asked, code.phoneCodeHash) := by
    rw [belonging, hlatest]
    rfl
  refine ⟨asked, hbelonging, hphone, ?_⟩
  rw [hbelonging, hphone, Option.some.injEq, Prod.mk.injEq, and_iff_left rfl]
  cases turnedAwaySince past with
  | none => simp
  | some other => simp [eq_comm]

/-! ## A code that is sent for another number -/

/-- The code that is sent first. -/
def firstCode : CodeRequest := ⟨.app 5, "abc", none, none⟩

/-- A request for a code, answered by a code. -/
def askedFirst : List Event :=
  [.answered .now default,
    .answered (.call (.sendCode "+1555" 0 "" {})) (.ok ⟨.sentCode, SentCode.code firstCode⟩)]

/-- A request for a code for another number, answered by the demand to sign up. -/
def askedAgain : List Event :=
  [.answered .now default,
    .answered (.call (.resendCode "+1666" "abc"))
      (.ok ⟨.sentCode, SentCode.success (.signUpRequired none)⟩)]

/-- The first code is sent with the other number. -/
def sentForOther : List Event :=
  [.answered (.call (.signIn "+1666" "abc" (some "12345"))) (.error .timeout)]

/-- The commands before the code is sent. -/
def askedTwice : Past :=
  [(.sendCode "+1666", askedAgain), (.sendCode "+1555", askedFirst)]

/-- The login flow after the first request. -/
def afterFirst : LoginFlow :=
  { phone := "+1555", request := some firstCode, requestedAt := some default }

/-- The login flow after the second: the number is the other one, the code is the same. -/
def afterAgain : LoginFlow := { afterFirst with phone := "+1666" }

/-- An account between two commands. -/
def between (flow : LoginFlow) : Account := { config := {}, profile := 0, login := .free flow }

/-- The account while a command is carried out. -/
def during : Account := { config := {}, profile := 0, login := .taken }

theorem run_askedFirst : Run Others.nobody (Command.sendCode "+1555").run (between {}) askedFirst
    (.done ()) (between afterFirst) := by
  have hstep : Run Others.nobody (sendCodeStep "+1555" {}) during askedFirst
      (.done (.ok (.code firstCode), afterFirst)) during := by
    refine Run.external_bind_iff.2 ⟨default, _, during, rfl, rfl, ?_⟩
    have hrequest : Run Others.nobody (requestCode {} "+1555") during
        [.answered (.call (.sendCode "+1555" 0 "" {})) (.ok ⟨.sentCode, SentCode.code firstCode⟩)]
        (.done (.ok (.code firstCode))) during :=
      Run.read_bind_iff.2 ⟨during, rfl, Run.of_call during rfl⟩
    exact hrequest.bind (.refl _ _)
  exact (Run.of_withLogin (a := between {}) rfl hstep).bind (.refl _ _)

theorem run_askedAgain : Run Others.nobody (Command.sendCode "+1666").run (between afterFirst)
    askedAgain (.done ()) (between afterAgain) := by
  have hstep : Run Others.nobody (sendCodeStep "+1666" afterFirst) during askedAgain
      (.done (.error .signUpRequired, afterAgain)) during := by
    refine Run.external_bind_iff.2 ⟨default, _, during, rfl, rfl, ?_⟩
    have hrequest : Run Others.nobody (requestCode afterFirst "+1666") during
        [.answered (.call (.resendCode "+1666" "abc"))
          (.ok ⟨.sentCode, SentCode.success (.signUpRequired none)⟩)]
        (.done (.ok (.success (.signUpRequired none)))) during := Run.of_call during rfl
    exact hrequest.bind (.refl _ _)
  exact (Run.of_withLogin (a := between afterFirst) rfl hstep).bind (.refl _ _)

theorem run_sentForOther : Run Others.nobody (Command.signIn "12345").run (between afterAgain)
    sentForOther (.done ()) (between afterAgain) := by
  have hstep : Run Others.nobody (signInStep "12345" afterAgain) during sentForOther
      (.done (.error (.call .timeout), afterAgain)) during := by
    have hexchange : Exchange (.signIn "+1666" "abc" (some "12345")) (.error .timeout) sentForOther :=
      rfl
    exact (Run.of_exchange during hexchange).bind (.refl _ _)
  exact (Run.of_withLogin (a := between afterAgain) rfl hstep).bind (.refl _ _)

theorem carriedOut_askedTwice :
    CarriedOut Others.nobody (between {}) askedTwice (between afterAgain) :=
  .command (.command (.start rfl) run_askedFirst) run_askedAgain

/-- The code for one number is sent with another, when the server wants the other to sign up first. -/
theorem code_sent_for_another_number :
    ¬ ∀ (a b : Account) (past : Past) (c : Command) (t : List Event) (q : Program Unit)
      (request : Request) (answer : Except CallError Reply) (phone hash : String),
      CarriedOut Others.nobody (between {}) past a → Run Others.nobody c.run a t q b →
        (request, answer) ∈ calls t → pair? request = some (phone, hash) →
        belonging past = some (phone, hash) := by
  intro h
  have hbelonging := h _ _ _ _ _ _ _ _ "+1666" "abc" carriedOut_askedTwice run_sentForOther
    List.mem_cons_self rfl
  have hnumbers : "+1555" = "+1666" := congrArg Prod.fst (Option.some.inj hbelonging)
  exact absurd hnumbers (by decide)

/-- The other number was turned away, so it is the one that is sent. -/
theorem sent_pair_iff_askedTwice :
    let sent : Request := .signIn "+1666" "abc" (some "12345")
    (∀ a b, Others.nobody.may a b → b.login = a.login) ∧ (between {}).login = .free {} ∧
    CarriedOut Others.nobody (between {}) askedTwice (between afterAgain) ∧
    Run Others.nobody (Command.signIn "12345").run (between afterAgain) sentForOther (.done ())
      (between afterAgain) ∧
    (sent, .error .timeout) ∈ calls sentForOther ∧ pair? sent = some ("+1666", "abc") ∧
    belonging askedTwice = some ("+1555", "abc") ∧ belonging askedTwice ≠ some ("+1666", "abc") := by
  intro sent
  have hR : ∀ a b, Others.nobody.may a b → b.login = a.login := by
    rintro a _ rfl
    rfl
  have hcall : (sent, .error .timeout) ∈ calls sentForOther := List.mem_cons_self
  obtain ⟨number, hbelonging, -, hiff⟩ := sent_pair_iff hR rfl carriedOut_askedTwice run_sentForOther
    hcall rfl
  refine ⟨hR, rfl, carriedOut_askedTwice, run_sentForOther, hcall, rfl, rfl, fun h => ?_⟩
  have haway : "+1666" = number := hiff.1 h "+1666" rfl
  have hnumber : "+1555" = number := congrArg Prod.fst (Option.some.inj hbelonging)
  exact absurd (hnumber.trans haway.symm) (by decide)

end Telebridge.Login
