import Telebridge.Login.Steps
import Telebridge.Proofs.Call.Retry
set_option autoImplicit false

/-! # What login steps ask for, and what they leave

A login step makes a few calls, and gives the login flow that is put back. Both can be read off its text,
whatever the server answers: the requests that it makes (`conforms_sendCodeStep` and its siblings), and
how the flow that it leaves differs from the one that it found (`LoginFlow.SignsIn`,
`LoginFlow.LogsOut`). -/

namespace Telebridge

/-! ## The flow afterwards -/

/-- To sign in leaves the flow as it was, or with a session and no code on its way. -/
inductive LoginFlow.SignsIn (flow : LoginFlow) : LoginFlow → Prop
  | failed : flow.SignsIn flow
  | opened (now : FileName.Moment) : flow.SignsIn { flow with request := none, signedInAt := some now }

/-- To log out leaves the flow as it was, or without a session and perhaps with one more token. -/
inductive LoginFlow.LogsOut (flow : LoginFlow) : LoginFlow → Prop
  | failed : flow.LogsOut flow
  | left : flow.LogsOut { flow with signedInAt := none }
  | leftToken (token : ByteArray) : flow.LogsOut { flow.pushToken token with signedInAt := none }

namespace Login

open Program Pipeline

variable {flow : LoginFlow}

/-- An authorization opens a session; the demand to sign up changes nothing. -/
theorem gives_commit (reply : AuthorizationReply) : (commit flow reply).Gives fun r =>
    match reply with
    | .signUpRequired _ => r = (.error .signUpRequired, flow)
    | .authorized session =>
      ∃ now, r = (.ok session, { flow with request := none, signedInAt := some now }) := by
  cases reply with
  | signUpRequired terms => rfl
  | authorized session =>
    exact gives_bind fun now => gives_bind fun _ => gives_bind fun _ => ⟨now, rfl⟩

theorem signsIn_commit (reply : AuthorizationReply) :
    (commit flow reply).Gives fun r => flow.SignsIn r.2 := by
  refine (gives_commit reply).mono fun r hr => ?_
  cases reply with
  | signUpRequired terms =>
    cases hr
    exact .failed
  | authorized session =>
    obtain ⟨now, rfl⟩ := hr
    exact .opened now

theorem signsIn_signInStep (code : String) :
    (signInStep code flow).Gives fun r => flow.SignsIn r.2 := by
  unfold signInStep
  cases flow.request with
  | none => exact .failed
  | some pending =>
    refine gives_bind fun reply => ?_
    cases reply with
    | ok authorization => exact signsIn_commit authorization
    | error e =>
      simp only
      split <;> exact .failed

theorem signsIn_passwordStep (secret : String) :
    (passwordStep secret flow).Gives fun r => flow.SignsIn r.2 := by
  refine gives_bind fun proof => ?_
  cases proof with
  | error e => exact .failed
  | ok proof =>
    refine gives_bind fun reply => ?_
    cases reply with
    | ok authorization => exact signsIn_commit authorization
    | error e =>
      simp only
      split <;> exact .failed

theorem logsOut_leave (token : Option ByteArray) :
    (leave flow token).Gives fun r => flow.LogsOut r.2 := by
  refine gives_bind fun _ => ?_
  cases token with
  | none => exact .left
  | some token =>
    simp only
    split
    · exact .left
    · exact .leftToken token

theorem logsOut_logOutStep : (logOutStep flow).Gives fun r => flow.LogsOut r.2 := by
  refine gives_bind fun reply => ?_
  cases reply with
  | ok token => exact logsOut_leave token
  | error e =>
    simp only
    split
    · exact .failed
    · exact logsOut_leave none

/-! ## The calls on the way -/

/-- If the event is a call, it is one of these. -/
def Asking (asks : Call → Prop) (e : Event) : Prop :=
  ∀ c, call? e = some c → asks c

variable {R : Others} {asks : Call → Prop}

theorem asking_of_no_call {e : Event} (h : call? e = none) : Asking asks e := by
  intro c hc
  rw [h] at hc
  cases hc

/-- A call that may be made, and what follows it. -/
theorem conforms_asking_bind {α : Type} {request : Request}
    {f : Except CallError request.expected.Value → Program α} (h : ∀ answer, asks (request, answer))
    (hf : ∀ r, (f r).Conforms R (.keeping fun _ => True) (fun _ => True) (Asking asks)) :
    (call request >>= f).Conforms R (.keeping fun _ => True) (fun _ => True) (Asking asks) := by
  refine conforms_call_bind (fun _ _ _ => id) (fun _ _ => asking_of_no_call rfl) fun answer _ => ?_
  refine ⟨?_, fun _ => id, hf _⟩
  rintro c hc
  cases hc
  exact h answer

theorem conforms_commit (reply : AuthorizationReply) :
    (commit flow reply).Conforms R (.keeping fun _ => True) (fun _ => True) (Asking asks) := by
  cases reply with
  | signUpRequired terms => exact conforms_done _
  | authorized session =>
    refine conforms_external_bind fun now _ => ⟨asking_of_no_call rfl, ?_⟩
    refine (conforms_update fun _ => id).bind fun _ => ?_
    exact (conforms_update fun _ => id).bind fun _ => conforms_done _

theorem conforms_requestCode_bind {α : Type} (phone : String) {f : Except CallError SentCode → Program α}
    (hsend : ∀ id hash answer, asks (.sendCode phone id hash flow.codeSettings, answer))
    (hresend : ∀ hash answer, asks (.resendCode phone hash, answer))
    (hf : ∀ r, (f r).Conforms R (.keeping fun _ => True) (fun _ => True) (Asking asks)) :
    (requestCode flow phone >>= f).Conforms R (.keeping fun _ => True) (fun _ => True)
      (Asking asks) := by
  unfold requestCode
  cases flow.request with
  | some pending => exact conforms_asking_bind (hresend _) hf
  | none =>
    show Conforms R (.keeping fun _ => True) (fun _ => True) (Asking asks)
      (Program.read Account.config >>= fun config =>
        call (.sendCode phone config.apiId config.apiHash flow.codeSettings) >>= f)
    exact conforms_read.bind fun config => conforms_asking_bind (hsend _ _) hf

theorem conforms_sendCodeStep (phone : String)
    (hsend : ∀ id hash answer, asks (.sendCode phone id hash flow.codeSettings, answer))
    (hresend : ∀ hash answer, asks (.resendCode phone hash, answer)) :
    (sendCodeStep phone flow).Conforms R (.keeping fun _ => True) (fun _ => True) (Asking asks) := by
  refine conforms_external_bind fun now _ => ⟨asking_of_no_call rfl, ?_⟩
  refine conforms_requestCode_bind phone hsend hresend fun r => ?_
  cases r with
  | error e => exact conforms_done _
  | ok sent =>
    cases sent with
    | code code => exact conforms_done _
    | success reply =>
      refine (conforms_commit reply).bind fun r => ?_
      obtain ⟨_ | _, flow'⟩ := r
      · exact conforms_done _
      · exact conforms_done _

theorem conforms_cancelCodeStep (h : ∀ phone hash answer, asks (.cancelCode phone hash, answer)) :
    (cancelCodeStep flow).Conforms R (.keeping fun _ => True) (fun _ => True) (Asking asks) := by
  unfold cancelCodeStep
  cases flow.request with
  | none => exact conforms_done _
  | some pending => exact conforms_asking_bind (h _ _) fun _ => conforms_done _

theorem conforms_signInStep (code : String)
    (h : ∀ phone hash code answer, asks (.signIn phone hash code, answer)) :
    (signInStep code flow).Conforms R (.keeping fun _ => True) (fun _ => True) (Asking asks) := by
  unfold signInStep
  cases flow.request with
  | none => exact conforms_done _
  | some pending =>
    refine conforms_asking_bind (h _ _ _) fun reply => ?_
    cases reply with
    | ok authorization => exact conforms_commit authorization
    | error e =>
      simp only
      split <;> exact conforms_done _

theorem conforms_passwordProof (secret : String) (h : ∀ answer, asks (.getPassword, answer)) :
    (passwordProof secret).Conforms R (.keeping fun _ => True) (fun _ => True) (Asking asks) := by
  refine conforms_asking_bind h fun reply => ?_
  cases reply with
  | error e => exact conforms_done _
  | ok description =>
    simp only
    split
    · exact conforms_done _
    · exact conforms_external_bind fun a _ => ⟨asking_of_no_call rfl, conforms_done _⟩

theorem conforms_passwordStep (secret : String) (h : ∀ answer, asks (.getPassword, answer))
    (h' : ∀ proof answer, asks (.checkPassword proof, answer)) :
    (passwordStep secret flow).Conforms R (.keeping fun _ => True) (fun _ => True) (Asking asks) := by
  refine (conforms_passwordProof secret h).bind fun proof => ?_
  cases proof with
  | error e => exact conforms_done _
  | ok proof =>
    refine conforms_asking_bind (h' proof) fun reply => ?_
    cases reply with
    | ok authorization => exact conforms_commit authorization
    | error e =>
      simp only
      split <;> exact conforms_done _

theorem conforms_leave (token : Option ByteArray) :
    (leave flow token).Conforms R (.keeping fun _ => True) (fun _ => True) (Asking asks) :=
  (conforms_update fun _ => id).bind fun _ => conforms_done _

theorem conforms_logOutStep (h : ∀ answer, asks (.logOut, answer)) :
    (logOutStep flow).Conforms R (.keeping fun _ => True) (fun _ => True) (Asking asks) := by
  refine conforms_asking_bind h fun reply => ?_
  cases reply with
  | ok token => exact conforms_leave token
  | error e =>
    simp only
    split
    · exact conforms_done _
    · exact conforms_leave none

end Login

end Telebridge
