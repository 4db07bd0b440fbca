import Telebridge.Login.Steps
import Telebridge.Proofs.Login.Bystanders
set_option autoImplicit false

/-! # Logging out

A logout can be undone in two places: an answer that revokes the authorization makes the pipeline sign
the account out, and the logout itself does so after any answer of the server. Subscribers hear of it
once (`logOut_returns`). A call without an answer of the server changes nothing. -/

namespace Telebridge

/-- The login flow after a logout that brought a token or none. -/
def LoginFlow.left (flow : LoginFlow) (token : Option ByteArray) : LoginFlow :=
  { flow with signedInAt := none, tokens := (token.elim flow flow.pushToken).tokens }

namespace Login

open Program Pipeline

/-- The token that a logout gets with the answer, if it is not empty. -/
def newToken? (answer : Except CallError Reply) : Option ByteArray :=
  let token : Except CallError (Option ByteArray) := outcome .logOut answer
  token.toOption.join.filter fun token => !token.isEmpty

theorem newToken?_of_ok {answer : Except CallError Reply} {token : Option ByteArray}
    (h : outcome .logOut answer = .ok token) :
    newToken? answer = token.filter fun token => !token.isEmpty := by
  unfold newToken?
  generalize outcome .logOut answer = r at h
  subst h
  rfl

theorem newToken?_of_error {answer : Except CallError Reply} {e : CallError}
    (h : outcome .logOut answer = .error e) : newToken? answer = none := by
  unfold newToken?
  generalize outcome .logOut answer = r at h
  subst h
  rfl

variable {R : Others} {env : Environment} {flow : LoginFlow} {a b : Account} {t : List Event}

/-! ## Steps -/

/-- To end the session signs the account out, and keeps a token that is not empty. -/
theorem leave_done {token : Option ByteArray} {r : Step Unit}
    (h : Run R (leave flow token) a t (.done r) b) :
    t = [] ∧ r = (.ok (), flow.left (token.filter fun token => !token.isEmpty)) ∧
      ∃ a₁, R.may a a₁ ∧ R.may { a₁ with signal := a₁.signal.reset.2 } b := by
  obtain ⟨a₁, ha₁, hdone⟩ := Run.update_bind_iff.1 h
  obtain ⟨rfl, rfl, hb⟩ := Run.done_iff.1 hdone
  refine ⟨rfl, ?_, a₁, ha₁, hb⟩
  cases token with
  | none => rfl
  | some token =>
    by_cases htoken : token.isEmpty <;>
      simp [htoken, LoginFlow.left, LoginFlow.pushToken, Option.filter]

/-- A logout is a call. After a failure on the way nothing more is done, after any other answer the
session is ended. -/
theorem logOutStep_cases {r : Step Unit} (h : Run R (logOutStep flow) a t (.done r) b) :
    ∃ answer x y, Exchange .logOut answer t ∧ R.may a x ∧ R.may (learn .logOut answer x) y ∧
      ((∃ failure, outcome .logOut answer = .error failure ∧ failure.isTransport ∧
          r = (.error (.call failure), flow) ∧ R.may y b) ∨
        ((∀ failure, outcome .logOut answer = .error failure → failure.isTransport = false) ∧
          r = (.ok (), flow.left (newToken? answer)) ∧
          ∃ z, R.may y z ∧ R.may { z with signal := z.signal.reset.2 } b)) := by
  obtain ⟨reply, t₁, t₂, y, rfl, hcall, hrest⟩ := h.bind_done
  obtain ⟨answer, x, hes, rfl, hx, hy⟩ := hcall.call_done
  cases hout : outcome .logOut answer with
  | ok token =>
    rw [hout] at hrest
    obtain ⟨rfl, rfl, hz⟩ := leave_done hrest
    rw [← newToken?_of_ok hout, List.append_nil]
    exact ⟨answer, x, y, hes, hx, hy, .inr ⟨by simp [hout], rfl, hz⟩⟩
  | error failure =>
    simp only [hout] at hrest
    split at hrest
    · next htransport =>
      obtain ⟨rfl, rfl, hb⟩ := Run.done_iff.1 hrest
      rw [List.append_nil]
      exact ⟨answer, x, y, hes, hx, hy, .inl ⟨failure, hout, htransport, rfl, hb⟩⟩
    · next htransport =>
      obtain ⟨rfl, rfl, hz⟩ := leave_done hrest
      have hnone : newToken? answer = none := newToken?_of_error hout
      rw [List.append_nil]
      exact ⟨answer, x, y, hes, hx, hy, .inr ⟨by simpa [hout] using htransport, by rw [hnone]; rfl, hz⟩⟩

/-- What the subscribers hear of a logout, if the server answers with what it promised. -/
theorem logOutStep_done {r : Step Unit} (hR : Bystanders R)
    (h : Run R (logOutStep flow) a t (.done r) b) (ht : ∀ e ∈ t, e.Typed) :
    ∃ answer, t = [.answered (.call .logOut) answer] ∧
      ((∃ failure, answer = .error failure ∧ failure.isTransport ∧
          r = (.error (.call failure), flow) ∧ a.signal.Announces [] b.signal) ∨
        ((∀ failure, answer = .error failure → failure.isTransport = false) ∧
          r = (.ok (), flow.left (newToken? answer)) ∧ AuthSignal.SignsOut a.signal b.signal)) := by
  obtain ⟨answer, x, y, hes, hx, hy, hcases⟩ := logOutStep_cases h
  have hacc : Request.logOut.Accepts answer := ht _ hes.answer_mem
  have hheeds := hR.heeds hx hy
  refine ⟨answer, hes.eq (hacc.no_updates (by decide)), ?_⟩
  obtain ⟨failure, hout, htransport, rfl, hb⟩ | ⟨hanswered, rfl, z, hz, hb⟩ := hcases
  · obtain rfl := hacc.eq_error hout
    have hquiet : ¬ Revoked [.answered (.call .logOut) (.error failure)] := by
      rw [revoked_answer]
      rintro ⟨_, ⟨⟩, rpc, rfl, -⟩
      cases htransport
    exact .inl ⟨failure, rfl, htransport, rfl, (hheeds.silent hquiet).trans (hR.silent _ _ hb)⟩
  · have hreset := (AuthSignal.signsOut_reset z.signal).before_silence (hR.silent _ _ hb)
    refine .inr ⟨?_, rfl, hheeds.signsOut (hreset.after_silence (hR.silent _ _ hz))⟩
    rintro failure rfl
    exact hanswered failure rfl

/-- A logout comes to its end when its call is answered. -/
theorem logOutStep_ends (typed : ∀ t e, env t e → e.Typed)
    (answers : ∃ answer, env t (.answered (.call .logOut) answer)) (flow : LoginFlow) (a : Account) :
    Returns R env (fun _ _ _ => True) (logOutStep flow) t a := by
  have hleave (token : Option ByteArray) (t : List Event) (a : Account) :
      Returns R env (fun _ _ _ => True) (leave flow token) t a :=
    Returns.update fun _ _ => Returns.done fun _ _ => trivial
  refine Returns.typed_call (by decide) typed answers fun answer _ a' _ _ _ _ => ?_
  cases outcome .logOut answer with
  | ok token => exact hleave token _ a'
  | error failure =>
    simp only
    split
    · exact Returns.done fun _ _ => trivial
    · exact hleave none _ a'

/-! ## The operation -/

/-- Whatever the server answers, and whatever subscribers do meanwhile, a logout comes to its end with
one call. It fails if the call met a failure on the way; then the login flow and who is signed in are as
before, and nothing is announced. Otherwise nobody is signed in any more, the session has no beginning, a
token that the server gave is kept, and the rest of the flow is as before. One sign-out is announced if
somebody was signed in, also if the answer revoked the authorization and the pipeline signed the account
out already, and nothing if nobody was. -/
theorem logOut_returns (hR : Bystanders R) (typed : ∀ t e, env t e → e.Typed)
    (answers : ∃ answer, env [] (.answered (.call .logOut) answer)) (ha : a.login = .free flow) :
    Returns R env (fun r t b => ∃ answer flow', t = [.answered (.call .logOut) answer] ∧
      b.login = .free flow' ∧
      match r with
      | .error e => ∃ failure, answer = .error failure ∧ failure.isTransport ∧ e = .call failure ∧
          flow' = flow ∧ b.signal.user = a.signal.user ∧ a.signal.Announces [] b.signal
      | .ok () => (∀ failure, answer = .error failure → failure.isTransport = false) ∧
          b.signal.user = none ∧
          flow' = { flow with
            signedInAt := none
            tokens := match newToken? answer with
              | some token => (flow.pushToken token).tokens
              | none => flow.tokens } ∧
          a.signal.Announces (if a.signal.user.isSome then [.signedOut] else []) b.signal)
      logOut [] a := by
  have hends : Returns R env (fun _ _ b => ∃ flow', b.login = .free flow' ∧ True) logOut [] a :=
    Returns.withLogin hR.login ha (logOutStep_ends typed answers flow)
  refine hends.by_run.mono ?_
  rintro r _ b ⟨t, rfl, hrun, henv⟩
  obtain ⟨flow', x, y, hstep, hlogin, -, -, hx, hy⟩ := hR.withLogin_done ha hrun
  obtain ⟨answer, rfl, hends⟩ := logOutStep_done hR hstep (henv.forall typed)
  refine ⟨answer, flow', rfl, hlogin, ?_⟩
  obtain ⟨failure, rfl, htransport, hr, hsilent⟩ | ⟨hanswer, hr, hleft⟩ := hends
  · obtain ⟨rfl, rfl⟩ := Prod.mk.inj hr
    have hquiet : a.signal.Announces [] b.signal :=
      (hx.trans hsilent).trans hy
    exact ⟨failure, rfl, htransport, rfl, rfl, hquiet.user_eq, hquiet⟩
  · obtain ⟨rfl, rfl⟩ := Prod.mk.inj hr
    have hout : AuthSignal.SignsOut a.signal b.signal :=
      (hleft.after_silence hx).before_silence hy
    refine ⟨hanswer, hout.user, ?_, hout.announces⟩
    cases newToken? answer <;> rfl

/-- An account with a user and a logout token, and one subscriber who has read so far. -/
def signedIn : Account :=
  { config := {}, profile := 0, login := .free { tokens := [⟨#[1]⟩] }
    signal := { user := some { id := 7 }, subscribers := [0], mailboxes := [{}], signIns := 1 } }

/-- The server says that the authorization is gone. -/
def gone : CallError := .rpc ⟨401, "AUTH_KEY_UNREGISTERED", none⟩

/-- The answer revokes the authorization, and the subscriber hears of one sign-out. -/
theorem logOut_returns_revoked :
    let server : Environment := fun _ e => e = .answered (.call .logOut) (.error gone)
    Bystanders Others.nobody ∧ (∀ t e, server t e → e.Typed) ∧
    (∃ answer, server [] (.answered (.call .logOut) answer)) ∧
    signedIn.login = .free { tokens := [⟨#[1]⟩] } ∧ Revokes gone ∧
    Returns Others.nobody server (fun r _ b => r = .ok () ∧ b.signal.user = none ∧
      b.login = .free { tokens := [⟨#[1]⟩] } ∧ signedIn.signal.Announces [.signedOut] b.signal)
      logOut [] signedIn := by
  intro server
  have typed : ∀ t e, server t e → e.Typed := by
    rintro t _ rfl
    trivial
  have answers : ∃ answer, server [] (.answered (.call .logOut) answer) := ⟨.error gone, rfl⟩
  refine ⟨bystanders_nobody, typed, answers, rfl, by decide, ?_⟩
  refine ((logOut_returns bystanders_nobody typed answers rfl).allowed trivial).mono ?_
  rintro r t b ⟨⟨answer, flow', rfl, hlogin, hr⟩, hserver⟩
  have hanswer : answer = .error gone := by
    have h : server [] (.answered (.call .logOut) answer) := by simpa using hserver
    cases h
    rfl
  subst hanswer
  cases r with
  | error e =>
    obtain ⟨_, ⟨⟩, htransport, -⟩ := hr
    exact absurd htransport (by decide)
  | ok u =>
    obtain ⟨-, huser, rfl, hannounces⟩ := hr
    exact ⟨rfl, huser, hlogin, hannounces⟩

end Login

end Telebridge
