import Telebridge.Proofs.Program.Race
import Telebridge.Proofs.Session.EarlyEnd
import Telebridge.Proofs.Session.WatchStep
set_option autoImplicit false

/-! # How a run ends

A run that comes to its end takes the session down: it is no longer started (`started_of_finished`), as long
as the others leave that to it. Only a run that crashes leaves the flag as it was. No run ends with the error
of a start (`result_ne_alreadyRunning`), and none touches the slot from which it was started
(`conforms_run`). -/

namespace Telebridge

open Program

/-- The others leave it to the run whether the session is started. -/
def Others.sameStarted : Others where
  may a b := b.started = a.started
  refl _ := rfl
  trans h h' := h'.trans h

/-- The others leave the run slot alone. -/
def Others.sameRun : Others where
  may a b := b.run = a.run
  refl _ := rfl
  trans h h' := h'.trans h

namespace Session

variable {R G : Others} {heard shown : Event → Prop} {a b : Account} {t : List Event}

/-- A login step does to the account what it does with the flow in its hands, and takes the flow. -/
theorem conforms_withLogin {β : Type} {step : LoginFlow → Program (β × LoginFlow)}
    (hlogin : ∀ a login, G.may a { a with login })
    (hstep : ∀ flow, (step flow).Conforms R G heard shown) :
    (withLogin step).Conforms R G heard shown := by
  refine Conforms.bind (conforms_await fun a flow b h => ?_) fun flow => ?_
  · split at h <;> cases h
    exact hlogin a .taken
  · exact (hstep flow).bind fun r => (conforms_update fun a => hlogin a (.free r.2)).bind fun _ =>
      conforms_done _

/-- What is stored is read off the account, and only the store and the login flow are touched. -/
theorem conforms_persist (hstore : ∀ a store, G.may a { a with store })
    (hlogin : ∀ a login, G.may a { a with login }) :
    persist.Conforms R G heard fun _ => True := by
  have hflush : Store.flush.Conforms R G heard fun _ => True :=
    (conforms_flush hstore).mono (fun _ _ h => h) fun _ _ => trivial
  refine hflush.bind fun _ => ?_
  refine (conforms_withLogin hlogin fun _ => conforms_done _).bind fun _ => ?_
  refine conforms_read.bind fun _ => conforms_read.bind fun _ => ?_
  exact Conforms.bind (conforms_external fun _ _ => trivial) fun _ => conforms_done _

/-! ## The end of a run -/

theorem wrapUp_started {result : Except SessionError Unit} {o : RunOutcome}
    (h : Run .sameStarted (wrapUp result) a t (.done o) b) : b.started = false := by
  obtain ⟨-, a₁, b₁, -, hpersist, hb⟩ := wrapUp_done h
  have hconforms : persist.Conforms .sameStarted .sameStarted (fun _ => True) fun _ => True :=
    conforms_persist (fun _ _ => rfl) fun _ _ => rfl
  have hkept := (hpersist.conforms (fun _ _ h => h) hconforms fun _ _ => trivial).1
  exact hb.trans hkept

/-- A run that is not gone takes the session down. -/
theorem started_of_finished {result : Except SessionError Unit}
    (h : Run .sameStarted run a t (.done (.finished result)) b) : b.started = false := by
  rw [run_eq] at h
  obtain ⟨o, _, _, a₁, rfl, -, hend⟩ := h.bind_done
  rcases o with (ended | _) | result
  · exact wrapUp_started hend
  · obtain ⟨_, _, _, _, -, -, hdone⟩ := Run.bind_done hend
    cases hdone.done_inv.2.1
  · exact wrapUp_started hend

/-- What a session does ends with an error of a call, or because nobody waited for its report. -/
theorem gives_body : body.Gives fun result => result ≠ .error .alreadyRunning := by
  refine gives_bind fun up => ?_
  cases up with
  | false => exact nofun
  | true =>
    refine gives_bind fun _ => gives_bind fun _ => gives_bind fun _ => gives_bind fun _ =>
      gives_bind fun reported => ?_
    cases reported with
    | false => exact nofun
    | true => exact gives_bind fun _ => nofun

/-- A run does not end with the error of a start that finds another run. -/
theorem result_ne_alreadyRunning {o : RunOutcome} (h : Run R run a t (.done o) b) :
    o.result ≠ .error .alreadyRunning := by
  rw [run_eq] at h
  obtain ⟨e, _, _, a₁, rfl, hrace, hend⟩ := h.bind_done
  have hbody := hrace.either_gives (gives_true link) gives_body
  rcases e with (ended | _) | result
  · obtain rfl := (wrapUp_done hend).1
    cases ended <;> exact nofun
  · obtain ⟨_, _, _, _, -, -, hdone⟩ := Run.bind_done hend
    cases hdone.done_inv.2.1
    exact nofun
  · obtain rfl := (wrapUp_done hend).1
    exact hbody

/-! ## The run slot -/

/-- A run leaves the run slot alone, if handling updates does. -/
theorem conforms_run (hR : ∀ a b, R.may a b → b.run = a.run) :
    run.Conforms R .sameRun (fun _ => True) fun _ => True := by
  have hlink : link.Conforms R .sameRun (fun _ => True) fun _ => True :=
    (conforms_link fun _ _ => rfl).mono (fun _ _ h => h) fun _ _ => trivial
  have hopening : opening.Conforms R .sameRun (fun _ => True) fun _ => True :=
    (conforms_opening hR (fun _ _ => rfl) fun _ _ _ => Pipeline.learn_run ..).mono (fun _ _ h => h)
      fun _ _ => trivial
  have hwatch : Watch.run.Conforms R .sameRun (fun _ => True) fun _ => True :=
    (Watch.conforms_run hR
      { learn := fun _ _ _ => Pipeline.learn_run ..
        purge := fun _ => rfl
        take := fun _ _ => rfl
        subscribe := fun _ => rfl
        unsubscribe := fun _ _ => rfl }).mono (fun _ _ h => h) fun _ _ => trivial
  have htake (profile : Profile) :
      (takeTokens profile).Conforms R .sameRun (fun _ => True) fun _ => True := by
    unfold takeTokens
    split
    · split
      · exact conforms_done _
      · exact conforms_withLogin (fun _ _ => rfl) fun _ => conforms_done _
    · exact conforms_done _
  have hpeers : restorePeers.Conforms R .sameRun (fun _ => True) fun _ => True := by
    refine (conforms_currentProfile fun _ _ => trivial).bind fun profile => ?_
    split
    · exact conforms_update fun _ => rfl
    · exact conforms_done _
  have hreport : reportReady.Conforms R .sameRun (fun _ => True) fun _ => True := by
    refine conforms_await fun a up b h => ?_
    split at h <;> cases h <;> rfl
  have hwrap (result : Except SessionError Unit) :
      (wrapUp result).Conforms R .sameRun (fun _ => True) fun _ => True :=
    Conforms.bind (conforms_update fun _ => rfl) fun _ =>
      (conforms_shield (conforms_persist (fun _ _ => rfl) fun _ _ => rfl)).bind fun _ => conforms_done _
  rw [run_eq, body_eq]
  refine (conforms_either hlink (hopening.bind fun profile => ?_)).bind fun o => ?_
  · cases profile with
    | none => exact conforms_done _
    | some profile =>
      refine (htake profile).bind fun _ => hpeers.bind fun _ =>
        Conforms.bind (conforms_update fun _ => rfl) fun _ => hreport.bind fun up => ?_
      cases up with
      | false => exact conforms_done _
      | true => exact hwatch.bind fun _ => conforms_done _
  · rcases o with (ended | _) | result
    · exact hwrap _
    · exact Conforms.bind (conforms_update fun _ => rfl) fun _ => conforms_done _
    · exact hwrap _

end Session

end Telebridge
