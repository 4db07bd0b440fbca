import Telebridge.ControlPlane.Server
import Telebridge.Proofs.Call.Retry
set_option autoImplicit false

/-! # Requests that are refused

A request whose credentials the gateway refuses is answered by a program that only looks: at which
profile the account has, at the profile, and at the credentials (`Program.Looking`). So the answer
depends on the request and the gateway alone. Nothing is asked of the server, nothing is started, and
nothing of the account is changed or told, whatever the account is (`refused_alike`). -/

namespace Telebridge

open Pipeline

/-! ## Programs that only look -/

/-- An action that changes nothing and reaches nobody but the gateway. -/
inductive Action.Looks : {β : Type} → Action β → Prop
  | account {β : Type} (f : Account → β) : Looks (.account fun a => some (f a, a))
  | profile (id : ProfileId) : Looks (.external (.profile id))
  | authorize (id : ProfileId) (headers : Headers) : Looks (.external (.authorize id headers))

/-- A look is no call, and leaves the account as it is. -/
theorem Action.Looks.leads {β : Type} {x : Action β} {R : Others} {a a' : Account} {es : List Event}
    {r : β} (hx : x.Looks) (h : x.Leads R a es r a') : calls es = [] ∧ a' = a := by
  cases hx with
  | account f =>
    obtain ⟨rfl, hf⟩ := h
    cases hf
    exact ⟨rfl, rfl⟩
  | profile | authorize =>
    obtain ⟨rfl, rfl⟩ := h
    exact ⟨rfl, rfl⟩

namespace Program

variable {R : Others} {heard : Event → Prop} {α β : Type}

/-- The program is done after some looks, with an answer that satisfies `Q`, if it is told what `heard`
admits. -/
inductive Looking (R : Others) (heard : Event → Prop) (Q : α → Prop) : Program α → Account → Prop
  | done {r : α} {a : Account} (h : Q r) : Looking R heard Q (.done r) a
  | look {β : Type} {x : Action β} {k : β → Program α} {a : Account} (hx : x.Looks)
      (can : ∀ b, R.may a b → ∃ es r c, x.Leads R b es r c ∧ ∀ e ∈ es, heard e)
      (must : ∀ b es r c, R.may a b → x.Leads R b es r c → (∀ e ∈ es, heard e) →
        Looking R heard Q (k r) c) :
      Looking R heard Q (.act x k) a

namespace Looking

variable {Q P : α → Prop} {p : Program α} {a : Account}

theorem after_others {b : Account} (h : Looking R heard Q p a) (hb : R.may a b) :
    Looking R heard Q p b := by
  cases h with
  | done h => exact .done h
  | look hx can must =>
    exact .look hx (fun c hc => can c (R.trans hb hc)) fun c es r d hc => must c es r d (R.trans hb hc)

theorem bind {f : α → Program β} {Q : β → Prop} (hp : Looking R heard P p a)
    (hf : ∀ r b, P r → Looking R heard Q (f r) b) : Looking R heard Q (p >>= f) a := by
  induction hp with
  | done h => exact hf _ _ h
  | look hx can _ ih => exact .look hx can ih

theorem read {f : Account → β} {k : β → Program α}
    (h : ∀ b, R.may a b → Looking R heard Q (k (f b)) b) :
    Looking R heard Q (Program.read f >>= k) a := by
  refine .look (.account f) (fun b _ => ⟨[], f b, b, ⟨rfl, rfl⟩, List.forall_mem_nil _⟩) ?_
  rintro b _ r c hb ⟨rfl, hr⟩ _
  cases hr
  exact h b hb

theorem external {e : External β} {k : β → Program α} (hx : (Action.external e).Looks)
    (can : ∃ r, heard (.answered e r))
    (must : ∀ r b, R.may a b → heard (.answered e r) → Looking R heard Q (k r) b) :
    Looking R heard Q (Program.external e >>= k) a := by
  refine .look hx (fun b _ => ?_) ?_
  · obtain ⟨r, hr⟩ := can
    exact ⟨[.answered e r], r, b, ⟨rfl, rfl⟩, List.forall_mem_singleton.2 hr⟩
  · rintro b _ r _ hb ⟨rfl, rfl⟩ hheard
    exact must r _ hb (hheard _ (List.mem_singleton.2 rfl))

theorem currentProfile {k : Profile → Program α}
    (can : ∀ b, R.may a b → ∃ profile, heard (.answered (.profile b.profile) profile))
    (must : ∀ profile b c, R.may a b → R.may b c → heard (.answered (.profile b.profile) profile) →
      Looking R heard Q (k profile) c) :
    Looking R heard Q (Program.currentProfile >>= k) a := by
  show Looking R heard Q (Program.read Account.profile >>= fun id =>
    Program.external (.profile id) >>= k) a
  refine read fun b hb => ?_
  exact external (.profile _) (can b hb) fun profile c hc => must profile b c hb hc

/-- A step of a program that only looks. -/
theorem after_step {q : Program α} {es : List Event} {b : Account} (h : Looking R heard Q p a)
    (hs : Step R p a es q b) (hes : ∀ e ∈ es, heard e) :
    calls es = [] ∧ b = a ∧ Looking R heard Q q b := by
  cases h with
  | done => exact hs.elim
  | look hx _ must =>
    obtain ⟨r, hr, rfl⟩ := hs
    obtain ⟨hcalls, hb⟩ := hx.leads hr
    exact ⟨hcalls, hb, must a es r b (R.refl a) hr hes⟩

/-- Wherever a run of such a program stands, it has called nobody, and the others alone have changed the
account. -/
theorem after_run {q : Program α} {t : List Event} {b : Account} (hrun : Run R p a t q b)
    (h : Looking R heard Q p a) (ht : ∀ e ∈ t, heard e) :
    calls t = [] ∧ R.may a b ∧ Looking R heard Q q b := by
  induction hrun with
  | stop hb => exact ⟨rfl, hb, h.after_others hb⟩
  | step ha hs _ ih =>
    rw [List.forall_mem_append] at ht
    obtain ⟨hcalls, rfl, hq⟩ := (h.after_others ha).after_step hs ht.1
    obtain ⟨hcalls', hb, hq'⟩ := ih hq ht.2
    exact ⟨by rw [calls_append, hcalls, hcalls', List.append_nil], R.trans ha hb, hq'⟩

theorem returns {t : List Event} (h : Looking R heard Q p a) :
    Returns R (fun _ e => heard e) (fun r _ _ => Q r) p t a := by
  induction h generalizing t with
  | done h => exact .done fun _ _ => h
  | look _ can _ ih =>
    refine .act (fun b hb => ?_) fun b es r c hb hr henv => ?_
    · obtain ⟨es, r, c, hr, hes⟩ := can b hb
      exact ⟨es, r, c, hr, Environment.allows_of_forall_mem fun e he _ => hes e he⟩
    · exact ih b es r c hb hr (henv.forall fun _ _ h => h)

end Looking

end Program

namespace ControlPlane

open Program

/-! ## Gateways -/

/-- What requests can see of a gateway: its login page, and its verdict on credentials. -/
structure Gateway where
  loginPage : Option String
  authorize : Headers → Except GatewayError Unit

/-- What can happen while an account works for a profile of the gateway. -/
def Gateway.Answers (g : Gateway) (id : ProfileId) : Event → Prop
  | .answered (.profile id') profile => id' = id → profile.loginPage = g.loginPage
  | .answered (.authorize id' headers) verdict => id' = id → verdict = g.authorize headers
  | _ => True

/-- The request is answered with the response, and up to then the program only looks: nobody is called,
and only the others change the account. -/
structure Denied (R : Others) (heard : Event → Prop) (r : Request) (response : Response) (a : Account) :
    Prop where
  returns : Returns R (fun _ e => heard e) (fun x _ _ => x = response) (answer r) [] a
  looks : ∀ t p b, Run R (answer r) a t p b → (∀ e ∈ t, heard e) →
    calls t = [] ∧ R.may a b ∧
      (p = .done response ∨ ∃ (β : Type) (x : Action β) (k : β → Program Response),
        p = .act x k ∧ x.Looks)

/-- A program that only looks before it gives the response. -/
theorem Denied.of_looking {R : Others} {heard : Event → Prop} {r : Request} {response : Response}
    {a : Account} (h : Looking R heard (fun x => x = response) (answer r) a) :
    Denied R heard r response a where
  returns := h.returns
  looks t p b hrun ht := by
    obtain ⟨hcalls, hb, hp⟩ := Looking.after_run hrun h ht
    refine ⟨hcalls, hb, ?_⟩
    cases hp with
    | done h => exact .inl (congrArg _ h)
    | look hx _ _ => exact .inr ⟨_, _, _, rfl, hx⟩

/-! ## Refused requests -/

/-- The login page, as a response. -/
def Gateway.loginResponse (g : Gateway) : Response :=
  match g.loginPage with
  | some html => .page html
  | none => .error (.notFound "chat.gateway.telegram.login.not_found" "login page not found")

/-- The response to a request for the only path, if its credentials are refused. -/
def Gateway.refusal (g : Gateway) (e : GatewayError) (r : Request) : Response :=
  if r.method = "GET" then
    if (Form.value? (query r.target) "auth").isSome then g.loginResponse else .error e
  else if r.method = "POST" then .error e
  else .error (.methodNotAllowed "METHOD_NOT_ALLOWED" "(405) Method not allowed")

section

variable {R : Others} {g : Gateway} {id : ProfileId} {a : Account}

theorem looking_loginPage (ha : a.profile = id) (hR : ∀ a b, R.may a b → b.profile = a.profile) :
    Looking R (g.Answers id) (fun x => x = g.loginResponse) loginPage a := by
  refine Looking.currentProfile (fun _ _ => ⟨{ loginPage := g.loginPage }, fun _ => rfl⟩) ?_
  intro profile b c hb _ hprofile
  rw [hprofile ((hR a b hb).trans ha)]
  unfold Gateway.loginResponse
  cases g.loginPage <;> exact .done rfl

theorem looking_asAdministrator {headers : Headers} {e : GatewayError}
    {continuation : Program (Except GatewayError Json)} (he : g.authorize headers = .error e)
    (ha : a.profile = id) (hR : ∀ a b, R.may a b → b.profile = a.profile) :
    Looking R (g.Answers id) (fun x => x = .error e) (asAdministrator headers continuation) a := by
  refine Looking.read fun b hb => ?_
  obtain rfl : b.profile = id := (hR a b hb).trans ha
  refine Looking.external (.authorize _ _) ⟨g.authorize headers, fun _ => rfl⟩ ?_
  intro verdict c _ hverdict
  rw [hverdict rfl, he]
  exact .done rfl

/-- A request that is not an administrator's is only looked at. -/
theorem looking_answerRoot {r : Request} {e : GatewayError} (he : g.authorize r.headers = .error e)
    (ha : a.profile = id) (hR : ∀ a b, R.may a b → b.profile = a.profile) :
    Looking R (g.Answers id) (fun x => x = g.refusal e r) (answerRoot r) a := by
  have hrefused (continuation : Program (Except GatewayError Json)) :
      Looking R (g.Answers id) (fun x => x = Response.error e)
        (do return Response.ofResult (← asAdministrator r.headers continuation)) a := by
    refine (looking_asAdministrator he ha hR).bind fun result _ h => ?_
    rw [h]
    exact .done rfl
  unfold answerRoot Gateway.refusal
  split
  · split
    · exact looking_loginPage ha hR
    · exact hrefused status
  · split
    · exact hrefused (submit r.body)
    · exact .done rfl

end

/-- The response to a request whose credentials are refused. -/
def Gateway.response (g : Gateway) (e : GatewayError) (r : Request) : Response :=
  let response :=
    if path r.target ≠ "/" then .nowhere
    else if bodyLimit < r.body.size then .tooLarge
    else g.refusal e r
  if r.method = "HEAD" then { response with body := "" } else response

theorem denied_answer {R : Others} {g : Gateway} {id : ProfileId} {a : Account} {r : Request}
    {e : GatewayError} (he : g.authorize r.headers = .error e) (ha : a.profile = id)
    (hR : ∀ a b, R.may a b → b.profile = a.profile) :
    Denied R (g.Answers id) r (g.response e r) a := by
  refine .of_looking ?_
  unfold answer Gateway.response
  split
  · exact .done rfl
  · split
    · exact .done rfl
    · refine (looking_answerRoot he ha hR).bind fun response _ h => ?_
      rw [h]
      exact .done rfl

/-- Two accounts that work for the same profile answer a request alike, if the gateway refuses its
credentials, and neither of them does anything but look. -/
theorem refused_alike {g : Gateway} {id : ProfileId} {r : Request} {e : GatewayError}
    (he : g.authorize r.headers = .error e) {R R' : Others} {a a' : Account} (ha : a.profile = id)
    (ha' : a'.profile = id) (hR : ∀ a b, R.may a b → b.profile = a.profile)
    (hR' : ∀ a b, R'.may a b → b.profile = a.profile) :
    ∃ response, Denied R (g.Answers id) r response a ∧ Denied R' (g.Answers id) r response a' :=
  ⟨g.response e r, denied_answer he ha hR, denied_answer he ha' hR'⟩

/-- A gateway that takes one header for credentials. -/
def headerGateway : Gateway where
  loginPage := none
  authorize headers :=
    if ("x-admin", "ok") ∈ headers then .ok ()
    else .error (.unauthorized "app.context.unauthorized" "unauthorized")

/-- A request to log out, without credentials. -/
def logOutRequest : Request where
  method := "POST"
  target := "/"
  headers := []
  body := Utf8.encode "logout=1"

/-- An account that is signed in and connected. -/
def signedIn : Account where
  config := {}
  profile := 3
  signal := { user := some { id := 5 } }
  started := true

theorem refused_alike_signedIn :
    headerGateway.authorize logOutRequest.headers =
      .error (.unauthorized "app.context.unauthorized" "unauthorized") ∧
    (∀ a b, Others.nobody.may a b → b.profile = a.profile) ∧
    ∃ response, Denied .nobody (headerGateway.Answers 3) logOutRequest response signedIn ∧
      Denied .nobody (headerGateway.Answers 3) logOutRequest response { config := {}, profile := 3 } := by
  have hrefused : headerGateway.authorize logOutRequest.headers =
      .error (.unauthorized "app.context.unauthorized" "unauthorized") := rfl
  have hprofile : ∀ a b, Others.nobody.may a b → b.profile = a.profile := by
    rintro a _ rfl
    rfl
  exact ⟨hrefused, hprofile, refused_alike hrefused rfl rfl hprofile hprofile⟩

end ControlPlane

end Telebridge
