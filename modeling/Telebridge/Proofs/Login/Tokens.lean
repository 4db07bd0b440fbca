import Telebridge.Proofs.Login.Conduct
import Telebridge.Proofs.Program.Turns
set_option autoImplicit false

/-! # Logout tokens

A logout adds a token, restoring adds some, and every other step of the login leaves the tokens as they
are. So no operation of the login drops all tokens, or leaves more than an account keeps
(`Operation.keeps`, `Operation.run_done`). -/

namespace Telebridge

namespace LoginFlow

variable {flow flow' : LoginFlow}

theorem restoreTokens_nil (flow : LoginFlow) : flow.restoreTokens [] = flow := by
  simp [restoreTokens]

/-- Restoring leaves tokens if there were some to restore. -/
theorem restoreTokens_ne_nil (flow : LoginFlow) {tokens : List ByteArray} (h : tokens ≠ []) :
    (flow.restoreTokens tokens).tokens ≠ [] := by
  cases tokens with
  | nil => exact absurd rfl h
  | cons t ts =>
    intro hnil
    obtain ⟨hflow, htake⟩ := List.append_eq_nil_iff.1 hnil
    rw [hflow] at htake
    cases htake

/-- Restoring leaves no more tokens than an account keeps. -/
theorem length_restoreTokens (h : flow.tokens.length ≤ maxTokens)
    (tokens : List ByteArray) : (flow.restoreTokens tokens).tokens.length ≤ maxTokens := by
  simp only [restoreTokens, List.length_append, List.length_take]
  omega

/-- If there were tokens there still are, and there are not too many if there were not before. -/
structure Keeps (flow flow' : LoginFlow) : Prop where
  ne_nil : flow.tokens ≠ [] → flow'.tokens ≠ []
  length_le : flow.tokens.length ≤ maxTokens → flow'.tokens.length ≤ maxTokens

theorem Keeps.of_eq (h : flow'.tokens = flow.tokens) : flow.Keeps flow' :=
  ⟨fun hne => h ▸ hne, fun hle => h ▸ hle⟩

theorem Keeps.trans {flow'' : LoginFlow} (h : flow.Keeps flow') (h' : flow'.Keeps flow'') :
    flow.Keeps flow'' :=
  ⟨fun hne => h'.ne_nil (h.ne_nil hne), fun hle => h'.length_le (h.length_le hle)⟩

theorem Keeps.restoreTokens (tokens : List ByteArray) : flow.Keeps (flow.restoreTokens tokens) := by
  refine ⟨fun hne hnil => ?_, fun h => length_restoreTokens h tokens⟩
  exact hne (List.append_eq_nil_iff.1 hnil).1

theorem Keeps.pushToken (token : ByteArray) : flow.Keeps (flow.pushToken token) := by
  refine ⟨fun _ => List.cons_ne_nil _ _, fun h => ?_⟩
  simp only [LoginFlow.pushToken, List.length_cons]
  split
  · rw [List.length_dropLast]
    have hpos : 0 < maxTokens := by decide
    omega
  · omega

theorem SignsIn.tokens_eq (h : flow.SignsIn flow') : flow'.tokens = flow.tokens := by
  cases h <;> rfl

theorem LogsOut.keeps (h : flow.LogsOut flow') : flow.Keeps flow' := by
  cases h with
  | failed => exact .of_eq rfl
  | left => exact .of_eq rfl
  | leftToken token => exact .trans (.pushToken token) (.of_eq rfl)

end LoginFlow

namespace Login

open Program

variable {flow : LoginFlow}

/-! ## Steps -/

theorem tokens_sendCodeStep (phone : String) (flow : LoginFlow) :
    (sendCodeStep phone flow).Gives fun r => r.2.tokens = flow.tokens := by
  refine gives_bind fun now => gives_bind fun r => ?_
  cases r with
  | error e => rfl
  | ok sent =>
    cases sent with
    | code c => rfl
    | success reply =>
      refine (signsIn_commit reply).bind fun r hr => ?_
      obtain ⟨_ | _, flow'⟩ := r
      · exact hr.tokens_eq
      · exact hr.tokens_eq

theorem tokens_cancelCodeStep (flow : LoginFlow) :
    (cancelCodeStep flow).Gives fun r => r.2.tokens = flow.tokens := by
  unfold cancelCodeStep
  cases flow.request with
  | none => rfl
  | some pending => exact gives_bind fun _ => rfl

/-! ## Operations -/

/-- The steps that are carried out with the login flow taken. -/
inductive Operation : {β : Type} → (LoginFlow → Program (β × LoginFlow)) → Prop
  | sendCode (phone : String) : Operation (sendCodeStep phone)
  | cancelCode : Operation cancelCodeStep
  | signIn (code : String) : Operation (signInStep code)
  | password (secret : String) : Operation (passwordStep secret)
  | logOut : Operation logOutStep
  | restoreTokens (tokens : List ByteArray) :
    Operation fun flow => return ((), flow.restoreTokens tokens)
  | flow : Operation fun flow => return (flow, flow)

theorem Operation.keeps {β : Type} {step : LoginFlow → Program (β × LoginFlow)}
    (h : Operation step) (flow : LoginFlow) : (step flow).Gives fun r => flow.Keeps r.2 := by
  have hsame {p : Program (β × LoginFlow)} (hp : p.Gives fun r => r.2.tokens = flow.tokens) :
      p.Gives fun r => flow.Keeps r.2 := hp.mono fun _ => LoginFlow.Keeps.of_eq
  cases h with
  | sendCode phone => exact hsame (tokens_sendCodeStep phone flow)
  | cancelCode => exact hsame (tokens_cancelCodeStep flow)
  | signIn code => exact hsame ((signsIn_signInStep code).mono fun _ h => h.tokens_eq)
  | password secret => exact hsame ((signsIn_passwordStep secret).mono fun _ h => h.tokens_eq)
  | logOut => exact logsOut_logOutStep.mono fun _ h => h.keeps
  | restoreTokens tokens => exact .restoreTokens tokens
  | flow => exact .of_eq rfl

/-- A finished operation takes the login flow, and puts back one that keeps to the tokens of it. -/
theorem Operation.run_done {R : Others} {β : Type} {step : LoginFlow → Program (β × LoginFlow)}
    {r : β} {a b : Account} {t : List Event} (h : Operation step)
    (hrun : Run R (withLogin step) a t (.done r) b) :
    ∃ flow flow' x y, R.may a x ∧ x.login = .free flow ∧ flow.Keeps flow' ∧
      y.login = .free flow' ∧ R.may y b := by
  obtain ⟨flow, flow', x, y, hx, hflow, hstep, hb⟩ := hrun.withLogin_done
  have hkeeps : flow.Keeps flow' := hstep.gives (P := fun r => flow.Keeps r.2) (h.keeps flow)
  exact ⟨flow, flow', x, { y with login := .free flow' }, hx, hflow, hkeeps, rfl, hb⟩

end Login

end Telebridge
