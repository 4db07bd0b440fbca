import Telebridge.Proofs.Account.Subscription
import Telebridge.Proofs.Call.Retry
import Telebridge.Proofs.Call.Transparency
import Telebridge.Proofs.Call.Typed
set_option autoImplicit false

/-! # What is announced while a login step is under way

The sign-in signal is not taken by a login step: while the step waits for the server, others subscribe,
read and leave, and the pipeline itself may sign the account out. `AuthSignal.Announces s es s'` says
that just the transitions `es` were announced on the way from `s` to `s'`, whoever did what in between.
`Bystanders` are others that announce nothing and leave the login alone; among them a call announces at
most the sign-out that its answer demands (`Bystanders.call_done`). -/

namespace Telebridge

namespace AuthSignal

variable {s s' s'' : AuthSignal} {es fs : List AuthEvent}

/-! ## Announcements -/

/-- Some operations lead from the one signal to the other, and their transitions are these. -/
def Announces (s : AuthSignal) (es : List AuthEvent) (s' : AuthSignal) : Prop :=
  ∃ ops, s' = s.after ops ∧ s.transitions ops = es

theorem transitions_append (s : AuthSignal) (ops ops' : List Operation) :
    s.transitions (ops ++ ops') = s.transitions ops ++ (s.after ops).transitions ops' := by
  induction ops generalizing s with
  | nil => rfl
  | cons op ops ih =>
    rw [List.cons_append, transitions, transitions, ih, List.append_assoc]
    rfl

theorem Announces.refl (s : AuthSignal) : s.Announces [] s :=
  ⟨[], rfl, rfl⟩

theorem Announces.trans (h : s.Announces es s') (h' : s'.Announces fs s'') :
    s.Announces (es ++ fs) s'' := by
  obtain ⟨ops, rfl, rfl⟩ := h
  obtain ⟨ops', rfl, rfl⟩ := h'
  exact ⟨ops ++ ops', (List.foldl_append ..).symm, transitions_append s ops ops'⟩

/-- What is announced by a single operation. -/
theorem announces_apply (s : AuthSignal) (op : Operation) :
    s.Announces (s.announced op).toList (s.apply op) :=
  ⟨[op], rfl, List.append_nil _⟩

theorem WellFormed.announces (hs : s.WellFormed) (h : s.Announces es s') : s'.WellFormed := by
  obtain ⟨ops, rfl, -⟩ := h
  exact hs.after ops

/-- An operation that is no transition leaves who is signed in. -/
theorem user_apply {op : Operation} (h : s.announced op = none) : (s.apply op).user = s.user := by
  cases op with
  | setUser user => cases h
  | reset =>
    by_cases hs : s.user.isSome
    · simp [announced, hs] at h
    · simp [apply, reset, hs]
  | receive id => rw [apply, receive_eq]; rfl
  | _ => rfl

/-- Who is signed in does not change unannounced. -/
theorem Announces.user_eq (h : s.Announces [] s') : s'.user = s.user := by
  obtain ⟨ops, rfl, hops⟩ := h
  induction ops generalizing s with
  | nil => rfl
  | cons op ops ih =>
    obtain ⟨hop, hops⟩ := List.append_eq_nil_iff.1 hops
    calc ((s.apply op).after ops).user
        = (s.apply op).user := ih hops
      _ = s.user := user_apply (by simpa using hop)

/-! ## Signing out -/

/-- Whoever was signed in is not any more, and this is all that was announced. -/
structure SignsOut (s s' : AuthSignal) : Prop where
  announces : s.Announces (if s.user.isSome then [.signedOut] else []) s'
  user : s'.user = none

theorem signsOut_reset (s : AuthSignal) : SignsOut s s.reset.2 where
  announces := by
    have htransition : (s.announced .reset).toList = if s.user.isSome then [.signedOut] else [] := by
      simp only [announced]
      split <;> rfl
    exact htransition ▸ announces_apply s .reset
  user := by
    cases hs : s.user <;> simp [reset, hs, broadcast]

theorem SignsOut.after_silence (h : s.Announces [] s') (h' : SignsOut s' s'') : SignsOut s s'' where
  announces := by
    rw [← h.user_eq]
    exact h.trans h'.announces
  user := h'.user

theorem SignsOut.before_silence (h : SignsOut s s') (h' : s'.Announces [] s'') : SignsOut s s'' where
  announces := by simpa using h.announces.trans h'
  user := h'.user_eq.trans h.user

/-- To sign out a second time changes nothing more. -/
theorem SignsOut.trans (h : SignsOut s s') (h' : SignsOut s' s'') : SignsOut s s'' := by
  have hsilent : s'.Announces [] s'' := by simpa [h.user] using h'.announces
  exact h.before_silence hsilent

end AuthSignal

open Pipeline Program

/-! ## Others that stand by -/

/-- The others leave the login alone, and announce nothing. -/
structure Bystanders (R : Others) : Prop where
  login : ∀ a b, R.may a b → b.login = a.login
  silent : ∀ a b, R.may a b → a.signal.Announces [] b.signal

theorem bystanders_nobody : Bystanders Others.nobody where
  login := by
    rintro a _ rfl
    rfl
  silent := by
    rintro a _ rfl
    exact .refl _

/-- Some call of the history was answered by an error that revokes the authorization of the session. -/
def Revoked (t : List Event) : Prop :=
  ∃ request e, (request, .error e) ∈ calls t ∧ Revokes e

theorem not_revoked_of_calls {t : List Event} (h : calls t = []) : ¬ Revoked t := by
  rintro ⟨_, _, hcall, -⟩
  rw [h] at hcall
  cases hcall

@[simp] theorem not_revoked_nil : ¬ Revoked [] :=
  not_revoked_of_calls rfl

@[simp] theorem revoked_append (t u : List Event) : Revoked (t ++ u) ↔ Revoked t ∨ Revoked u := by
  simp only [Revoked, calls_append, List.mem_append, or_and_right, exists_or]

theorem revoked_answer (request : Request) (answer : Except CallError Reply) :
    Revoked [.answered (.call request) answer] ↔ ∃ e, answer = .error e ∧ Revokes e := by
  have hcalls : calls [.answered (.call request) answer] = [(request, answer)] := rfl
  rw [Revoked, hcalls]
  constructor
  · rintro ⟨_, e, hcall, he⟩
    exact ⟨e, (congrArg Prod.snd (List.mem_singleton.1 hcall)).symm, he⟩
  · rintro ⟨e, rfl, he⟩
    exact ⟨request, e, List.mem_singleton.2 rfl, he⟩

/-- A call that gives its caller a value revokes nothing. -/
theorem not_revoked_of_outcome {request : Request} {answer : Except CallError Reply}
    {v : request.expected.Value} (h : outcome request answer = .ok v) :
    ¬ Revoked [.answered (.call request) answer] := by
  rw [revoked_answer]
  rintro ⟨e, rfl, -⟩
  cases h

/-- What a history makes of the signal: the account is signed out if the authorization is revoked, and
nothing is announced otherwise. -/
structure Heeds (t : List Event) (s s' : AuthSignal) : Prop where
  revoked : Revoked t → AuthSignal.SignsOut s s'
  silent : ¬ Revoked t → s.Announces [] s'

variable {R : Others} {a b : Account} {s s' s'' : AuthSignal} {t u : List Event}

/-- Where no call is answered, nothing is announced. -/
theorem Heeds.of_silence (ht : ¬ Revoked t) (h : s.Announces [] s') : Heeds t s s' :=
  ⟨fun hrevoked => absurd hrevoked ht, fun _ => h⟩

/-- Whatever was made of the signal, a sign-out after it is the only one that is announced. -/
theorem Heeds.signsOut (h : Heeds t s s') (h' : AuthSignal.SignsOut s' s'') :
    AuthSignal.SignsOut s s'' := by
  by_cases ht : Revoked t
  · exact (h.revoked ht).trans h'
  · exact h'.after_silence (h.silent ht)

theorem Heeds.append (h : Heeds t s s') (h' : Heeds u s' s'') : Heeds (t ++ u) s s'' where
  revoked := by
    rw [revoked_append]
    intro hrevoked
    by_cases hu : Revoked u
    · exact h.signsOut (h'.revoked hu)
    · exact (h.revoked (hrevoked.resolve_right hu)).before_silence (h'.silent hu)
  silent := by
    rw [revoked_append, not_or]
    rintro ⟨ht, hu⟩
    exact (h.silent ht).trans (h'.silent hu)

/-- What is learnt from an answer. -/
theorem heeds_learn (request : Request) (answer : Except CallError Reply) (a : Account) :
    Heeds [.answered (.call request) answer] a.signal (learn request answer a).signal := by
  cases answer with
  | error e =>
    by_cases he : e.isUnauthorized
    · have hrevoked : Revoked [.answered (.call request) (.error e)] :=
        (revoked_answer ..).2 ⟨e, rfl, (revokes_iff e).2 he⟩
      simp only [learn, if_pos he]
      exact ⟨fun _ => AuthSignal.signsOut_reset a.signal, fun h => absurd hrevoked h⟩
    · simp only [learn, if_neg he]
      refine .of_silence ?_ (.refl a.signal)
      rw [revoked_answer]
      rintro ⟨_, ⟨⟩, hrevokes⟩
      exact absurd ((revokes_iff e).1 hrevokes) he
  | ok reply =>
    refine .of_silence ?_ (.refl a.signal)
    rw [revoked_answer]
    rintro ⟨_, ⟨⟩, -⟩

/-- What becomes of the signal when an answer is learnt among bystanders. -/
theorem Bystanders.heeds {request : Request} {answer : Except CallError Reply} {x : Account}
    (hR : Bystanders R) (hx : R.may a x) (hb : R.may (learn request answer x) b) :
    Heeds [.answered (.call request) answer] a.signal b.signal := by
  have hbefore : Heeds [] a.signal x.signal := .of_silence not_revoked_nil (hR.silent _ _ hx)
  have hafter := Heeds.of_silence not_revoked_nil (hR.silent _ _ hb)
  simpa using (hbefore.append (heeds_learn request answer x)).append hafter

/-- Among bystanders a finished call that promises no updates shows its answer, and does to the signal
what the answer demands. -/
theorem Bystanders.call_done {request : Request} {r : Except CallError request.expected.Value}
    (hR : Bystanders R) (hu : request.expected ≠ .updates)
    (h : Run R (call request) a t (.done r) b) (ht : ∀ e ∈ t, e.Typed) :
    ∃ answer, t = [.answered (.call request) answer] ∧ r = outcome request answer ∧
      Heeds t a.signal b.signal := by
  obtain ⟨answer, x, -, rfl, rfl, hx, hb⟩ := Run.typed_call_done hu h ht
  exact ⟨answer, rfl, rfl, hR.heeds hx hb⟩

/-- Among bystanders a login step starts from the login flow that is there, and what it leaves is put
back. Nothing is announced before and after it. -/
theorem Bystanders.withLogin_done {β : Type} {step : LoginFlow → Program (β × LoginFlow)}
    {flow : LoginFlow} {r : β} (hR : Bystanders R) (ha : a.login = .free flow)
    (h : Run R (withLogin step) a t (.done r) b) :
    ∃ flow' x y, Run R (step flow) { x with login := .taken } t (.done (r, flow')) y ∧
      b.login = .free flow' ∧ R.may a x ∧ R.may { y with login := .free flow' } b ∧
      a.signal.Announces [] x.signal ∧ y.signal.Announces [] b.signal := by
  obtain ⟨flow₁, flow', x, y, hx, hflow, hstep, hb⟩ := h.withLogin_done
  obtain rfl : flow = flow₁ := by
    rw [hR.login a x hx, ha, Guarded.free.injEq] at hflow
    exact hflow
  have hafter := hR.silent _ b hb
  exact ⟨flow', x, y, hstep, hR.login _ b hb, hx, hb, hR.silent a x hx, hafter⟩

end Telebridge
