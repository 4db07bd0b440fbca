import Telebridge.Proofs.Login.CodePairing
import Telebridge.Proofs.Login.LogOut
import Telebridge.Proofs.Login.Tokens
set_option autoImplicit false

/-! # The ring of logout tokens

The logout tokens grow at both ends: a logout puts a new token in front, and the oldest goes when there
are too many; restored tokens are added behind, as far as there is room. What is held is a function of
what was done (`held`), there are never more than twenty, and a request for a code always carries all of
them (`tokens_of_past`). -/

namespace Telebridge.Login

open Program Pipeline

/-! ## The tokens after some commands -/

/-- The token that a history brings as the answer to a logout. -/
def given? (t : List Event) : Option ByteArray :=
  (calls t).findSome? fun
    | (.logOut, answer) => newToken? answer
    | _ => none

/-- The tokens after a command and what it showed. -/
def tokensAfter (c : Command × List Event) (tokens : List ByteArray) : List ByteArray :=
  match c with
  | (.logOut, t) => (given? t).elim tokens fun token => token :: tokens.take 19
  | (.restoreTokens restored, _) => tokens ++ restored.take (20 - tokens.length)
  | _ => tokens

/-- The tokens after some commands, the latest first. -/
def held (tokens : List ByteArray) (past : Past) : List ByteArray :=
  past.foldr tokensAfter tokens

theorem length_tokensAfter {tokens : List ByteArray} (h : tokens.length ≤ 20)
    (c : Command × List Event) : (tokensAfter c tokens).length ≤ 20 := by
  obtain ⟨c, t⟩ := c
  cases c with
  | logOut =>
    rw [tokensAfter]
    cases given? t with
    | none => exact h
    | some token =>
      simp only [Option.elim_some, List.length_cons, List.length_take]
      omega
  | restoreTokens restored =>
    simp only [tokensAfter, List.length_append, List.length_take]
    omega
  | _ => exact h

theorem length_held {tokens : List ByteArray} (h : tokens.length ≤ 20) (past : Past) :
    (held tokens past).length ≤ 20 := by
  induction past with
  | nil => exact h
  | cons c past ih => exact length_tokensAfter ih c

/-- Where there is no room for it, a new token takes the place of the oldest. -/
theorem tokens_pushToken {flow : LoginFlow} (h : flow.tokens.length ≤ 20) (token : ByteArray) :
    (flow.pushToken token).tokens = token :: flow.tokens.take 19 := by
  have hmax : LoginFlow.maxTokens = 20 := rfl
  by_cases hfull : LoginFlow.maxTokens ≤ flow.tokens.length
  · have hlength : flow.tokens.length = 20 := by omega
    simp only [LoginFlow.pushToken, if_pos hfull]
    rw [List.dropLast_eq_take, hlength]
  · have hroom : flow.tokens.length ≤ 19 := by omega
    simp only [LoginFlow.pushToken, if_neg hfull, List.take_of_length_le hroom]

/-! ## What is asked for -/

/-- The requests that the steps of a login make. Those for a code carry the tokens of the flow. -/
inductive Asks (flow : LoginFlow) : Request → Prop
  | sendCode (phone : String) (apiId : Int32) (apiHash : String) :
    Asks flow (.sendCode phone apiId apiHash flow.codeSettings)
  | resendCode (phone hash : String) : Asks flow (.resendCode phone hash)
  | cancelCode (phone hash : String) : Asks flow (.cancelCode phone hash)
  | signIn (phone hash : String) (code : Option String) : Asks flow (.signIn phone hash code)
  | getPassword : Asks flow .getPassword
  | checkPassword (proof : PasswordProof) : Asks flow (.checkPassword proof)
  | logOut : Asks flow .logOut

/-- If the event is a call, it is one of these requests. -/
abbrev Asked (flow : LoginFlow) : Event → Prop :=
  Asking fun c => Asks flow c.1

variable {R : Others} {flow : LoginFlow} {a b : Account} {t : List Event} {α : Type}

/-- A command asks for nothing else. -/
theorem Command.conforms_step (c : Command) :
    (c.step flow).Conforms R (.keeping fun _ => True) (fun _ => True) (Asked flow) := by
  have hforget {β : Type} {p : Program (β × LoginFlow)}
      (hp : p.Conforms R (.keeping fun _ => True) (fun _ => True) (Asked flow)) :
      (forget p).Conforms R (.keeping fun _ => True) (fun _ => True) (Asked flow) :=
    hp.bind fun _ => conforms_done _
  cases c with
  | sendCode phone =>
    exact hforget (conforms_sendCodeStep phone (fun _ _ _ => .sendCode ..) fun _ _ => .resendCode ..)
  | cancelCode => exact conforms_cancelCodeStep fun _ _ _ => .cancelCode ..
  | signIn code => exact hforget (conforms_signInStep code fun _ _ _ _ => .signIn ..)
  | password secret =>
    exact hforget (conforms_passwordStep secret (fun _ => .getPassword) fun _ _ => .checkPassword _)
  | logOut => exact hforget (conforms_logOutStep fun _ => .logOut)
  | restoreTokens tokens => exact conforms_done _

/-! ## What a command makes of the tokens -/

/-- A logout puts the token that it is given in front. -/
theorem tokens_logOut_done {r : Step Unit} (hle : flow.tokens.length ≤ 20)
    (h : Run R (logOutStep flow) a t (.done r) b) :
    r.2.tokens = tokensAfter (.logOut, t) flow.tokens := by
  obtain ⟨answer, x, y, hes, -, -, hcases⟩ := logOutStep_cases h
  have hgiven : given? t = newToken? answer := by
    rw [given?, hes.calls_eq]
    exact List.findSome?_singleton
  obtain ⟨failure, hout, -, rfl, -⟩ | ⟨-, rfl, -⟩ := hcases
  · rw [tokensAfter, hgiven, newToken?_of_error hout, Option.elim_none]
  · rw [tokensAfter, hgiven, LoginFlow.left]
    cases newToken? answer with
    | none => rfl
    | some token => exact tokens_pushToken hle token

theorem Command.tokens_done (c : Command) {r : Unit} {flow' : LoginFlow} (hle : flow.tokens.length ≤ 20)
    (h : Run R (c.step flow) a t (.done (r, flow')) b) :
    flow'.tokens = tokensAfter (c, t) flow.tokens := by
  have hforget {α : Type} {p : Program (α × LoginFlow)} (h : Run R (forget p) a t (.done (r, flow')) b) :
      ∃ r₁ : α, Run R p a t (.done (r₁, flow')) b := by
    obtain ⟨⟨r₁, flow₁⟩, hr, hp⟩ := Run.map_iff.1 h
    cases hr
    exact ⟨r₁, hp⟩
  have hsame {α : Type} {p : Program (α × LoginFlow)} (hp : p.Gives fun r => r.2.tokens = flow.tokens)
      (h : Run R (forget p) a t (.done (r, flow')) b) : flow'.tokens = flow.tokens := by
    obtain ⟨r₁, h⟩ := hforget h
    exact h.gives (P := fun r => r.2.tokens = flow.tokens) hp
  cases c with
  | sendCode phone => exact hsame (tokens_sendCodeStep phone flow) h
  | cancelCode => exact h.gives (P := fun r => r.2.tokens = flow.tokens) (tokens_cancelCodeStep flow)
  | signIn code => exact hsame ((signsIn_signInStep code).mono fun _ h => h.tokens_eq) h
  | password secret => exact hsame ((signsIn_passwordStep secret).mono fun _ h => h.tokens_eq) h
  | logOut =>
    obtain ⟨r, h⟩ := hforget h
    exact tokens_logOut_done hle h
  | restoreTokens tokens =>
    obtain ⟨-, hr, -⟩ := Run.done_iff.1 h
    cases hr
    rfl

/-! ## Runs -/

/-- A command asks with the tokens of the flow that it finds, and leaves those that it should. -/
theorem Command.tokens_safe (c : Command) {a : Account} (hR : ∀ a b, R.may a b → b.login = a.login)
    (ha : a.login = .free flow) (hle : flow.tokens.length ≤ 20) :
    Safe R .anything (fun _ e => Asked flow e) (fun _ t b => ∃ flow', b.login = .free flow' ∧
      flow'.tokens = tokensAfter (c, t) flow.tokens) c.run [] a := by
  rw [c.run_eq]
  refine Safe.withLogin (Q := fun _ flow' t => flow'.tokens = tokensAfter (c, t) flow.tokens) hR ha ?_
  intro a
  refine Safe.of_runs (fun _ _ _ => id) c.conforms_step (fun _ _ _ he => he) ?_
  rintro t ⟨r, flow'⟩ b hrun - - -
  exact c.tokens_done hle hrun

/-- Between two commands the login is free, and the tokens are those that follow from what was done. -/
theorem CarriedOut.tokens {a₀ a : Account} {past : Past} (hR : ∀ a b, R.may a b → b.login = a.login)
    (h₀ : a₀.login = .free flow) (hle : flow.tokens.length ≤ 20) (h : CarriedOut R a₀ past a) :
    ∃ flow', a.login = .free flow' ∧ flow'.tokens = held flow.tokens past := by
  induction h with
  | start ha => exact ⟨flow, (hR _ _ ha).trans h₀, rfl⟩
  | @command past c a b t _ hrun ih =>
    obtain ⟨flow', hflow', htokens⟩ := ih
    have hle' : flow'.tokens.length ≤ 20 := htokens ▸ length_held hle past
    obtain ⟨-, hdone⟩ := c.tokens_safe hR hflow' hle' t _ b hrun (Environment.anything_allows _ _)
    obtain ⟨flow'', hflow'', htokens'⟩ := hdone () rfl
    exact ⟨flow'', hflow'', by rw [List.nil_append, htokens] at htokens'; exact htokens'⟩

/-- Whatever was done since the account had at most twenty tokens, and whatever the server said: it has
at most twenty. They are those that follow from the answers to the logouts and from what was restored,
the latest first, and when a code is asked for next, the request carries all of them, or no list if there
are none. -/
theorem tokens_of_past {a₀ a : Account} {past : Past} (hR : ∀ a b, R.may a b → b.login = a.login)
    (h₀ : a₀.login = .free flow) (hle : flow.tokens.length ≤ 20) (h : CarriedOut R a₀ past a) :
    (∃ flow', a.login = .free flow' ∧ flow'.tokens = held flow.tokens past) ∧
    (held flow.tokens past).length ≤ 20 ∧
    ∀ (c : Command) (t : List Event) (q : Program Unit) (b : Account), Run R c.run a t q b →
      ∀ (phone : String) (apiId : Int32) (apiHash : String) (settings : CodeSettings)
        (answer : Except CallError Reply), (.sendCode phone apiId apiHash settings, answer) ∈ calls t →
        settings.logoutTokens =
          if held flow.tokens past = [] then none else some (held flow.tokens past) := by
  obtain ⟨flow', hflow', htokens⟩ := h.tokens hR h₀ hle
  have hle' : flow'.tokens.length ≤ 20 := htokens ▸ length_held hle past
  refine ⟨⟨flow', hflow', htokens⟩, length_held hle past, ?_⟩
  intro c t q b hrun phone apiId apiHash settings answer hcall
  obtain ⟨hasked, -⟩ := c.tokens_safe hR hflow' hle' t q b hrun (Environment.anything_allows _ _)
  obtain ⟨e, he, hcall⟩ := List.mem_filterMap.1 hcall
  have hask : Asked flow' e := hasked.forall (fun _ _ h => h) e he
  cases hask _ hcall
  simp [LoginFlow.codeSettings, htokens]

/-! ## A token that is restored, and one that is given -/

/-- The token that is restored. -/
def restored : ByteArray := ⟨#[1]⟩

/-- The token that the server gives. -/
def fresh : ByteArray := ⟨#[2]⟩

/-- A logout that is answered by the token. -/
def leftWithToken : List Event :=
  [.answered (.call .logOut) (.ok ⟨.loggedOut, (some fresh : Option ByteArray)⟩)]

/-- A token was restored, then the account logged out. -/
def twoTokens : Past :=
  [(.logOut, leftWithToken), (.restoreTokens [restored], [])]

/-- The settings with both tokens. -/
def withBoth : CodeSettings := { logoutTokens := some [fresh, restored] }

/-- A request for a code that gets no answer. -/
def askedWithBoth : List Event :=
  [.answered .now default, .answered (.call (.sendCode "+1555" 0 "" withBoth)) (.error .timeout)]

/-- The login flow in between. -/
def withRestored : LoginFlow := { tokens := [restored] }

/-- The login flow after both. -/
def withFresh : LoginFlow := { tokens := [fresh, restored] }

theorem carriedOut_twoTokens :
    CarriedOut Others.nobody (between {}) twoTokens (between withFresh) := by
  have hrestore : Run Others.nobody (withLogin fun flow => (Command.restoreTokens [restored]).step flow)
      (between {}) [] (.done ()) { during with login := .free withRestored } :=
    Run.of_withLogin rfl (.refl _ during)
  have hcall : Run Others.nobody (call .logOut) during leftWithToken (.done (.ok (some fresh))) during :=
    Run.of_call during rfl
  have hleave : Run Others.nobody (leave withRestored (some fresh)) during []
      (.done (.ok (), withFresh)) during :=
    Run.update_bind_iff.2 ⟨during, rfl, Run.done_iff.2 ⟨rfl, rfl, rfl⟩⟩
  have hstep : Run Others.nobody (logOutStep withRestored) during leftWithToken
      (.done (.ok (), withFresh)) during := hcall.bind hleave
  have hlogOut := Run.of_withLogin (a := between withRestored) rfl hstep
  exact .command (.command (.start rfl) hrestore) (hlogOut.bind (.refl _ _))

theorem run_askedWithBoth : ∃ q b, Run Others.nobody (Command.sendCode "+1555").run
    (between withFresh) askedWithBoth q b := by
  have hanswer : Exchange (.sendCode "+1555" 0 "" withBoth) (.error .timeout)
    [.answered (.call (.sendCode "+1555" 0 "" withBoth)) (.error .timeout)] := rfl
  have hcall := Run.of_exchange (R := Others.nobody) during hanswer
  have hrequest : Run Others.nobody (requestCode withFresh "+1555") during _ _ _ :=
    Run.read_bind_iff.2 ⟨during, rfl, hcall⟩
  have hstep : Run Others.nobody (sendCodeStep "+1555" withFresh) during
      askedWithBoth _ _ :=
    Run.external_bind_iff.2 ⟨default, _, during, rfl, rfl, hrequest.bind (.refl _ _)⟩
  exact ⟨_, _, (Run.of_withLogin (a := between withFresh) rfl hstep).bind
    (.refl _ _)⟩

/-- The token that was given comes first. -/
theorem tokens_of_past_twoTokens :
    (∀ a b, Others.nobody.may a b → b.login = a.login) ∧ (between {}).login = .free {} ∧
    ({} : LoginFlow).tokens.length ≤ 20 ∧
    CarriedOut Others.nobody (between {}) twoTokens (between withFresh) ∧
    held [] twoTokens = [fresh, restored] ∧
    ∃ q b, Run Others.nobody (Command.sendCode "+1555").run (between withFresh)
        askedWithBoth q b ∧
      (.sendCode "+1555" 0 "" withBoth, .error .timeout) ∈ calls askedWithBoth ∧
      withBoth.logoutTokens = some (held [] twoTokens) := by
  have hR : ∀ a b, Others.nobody.may a b → b.login = a.login := by
    rintro a _ rfl
    rfl
  have hle : ({} : LoginFlow).tokens.length ≤ 20 := by decide
  have hcall : (.sendCode "+1555" 0 "" withBoth, .error .timeout) ∈ calls askedWithBoth :=
    List.mem_cons_self
  have hheld : held [] twoTokens = [fresh, restored] := rfl
  obtain ⟨q, b, hrun⟩ := run_askedWithBoth
  obtain ⟨-, -, hsent⟩ := tokens_of_past hR rfl hle carriedOut_twoTokens
  have hsettings := hsent _ _ q b hrun _ _ _ _ _ hcall
  exact ⟨hR, rfl, hle, carriedOut_twoTokens, hheld, q, b, hrun, hcall,
    hsettings.trans (if_neg (List.cons_ne_nil _ _))⟩

end Telebridge.Login
