import Telebridge.Proofs.Call.Pipeline
import Telebridge.Proofs.Session.Persist
set_option autoImplicit false

/-! # Sessions that end early

A session restores logout tokens and access hashes once its connection is up. One that ends before,
because the connection ends, is not reported, or is cancelled, stores its backup all the same. For a
session that began with nothing in memory `EndsUnrestored.stored_iff` says what is left: the stored
tokens stay, and the stored hashes are replaced by those in the directory. They survive exactly if that
makes no difference; without an answer from the server, exactly if there were none. -/

namespace Telebridge.Session

open Program

/-! ## The part before restoring -/

/-- What a session does before it restores anything: it waits for the connection, asks who is signed in,
and reads the profile. There is no profile if the connection will not come up. -/
def opening : Program (Option Profile) := do
  if ← awaitConnection then
    let _ ← Login.refresh
    let profile ← Program.currentProfile
    return some profile
  else return none

/-- Takes up the logout tokens of a profile. -/
def takeTokens (profile : Profile) : Program Unit :=
  match Backup.toTokens (profile.metadataText MetadataKey.auth) with
  | .ok tokens => if tokens.isEmpty then return () else Login.restoreTokens tokens
  | .error _ => return ()

/-- What follows. -/
def restoring : Option Profile → Program (Except SessionError Unit)
  | none => return .error (.call .dropped)
  | some profile => do
    takeTokens profile
    restorePeers
    Program.update fun a => { a with started := true }
    if ← reportReady then
      Watch.run
      return .ok ()
    else return .error .stopped

theorem body_eq : body = opening.bind restoring := by
  simp only [body, opening, restoreTokens, bind_eq_bind, bind_assoc]
  congr 1
  funext up
  cases up with
  | false => rfl
  | true =>
    simp only [if_true, bind_assoc, pure_eq_done, done_bind]
    rfl

/-! ## Ends before restoring -/

/-- The result of a session of which no part after `opening` was run, unless it goes on or is gone. -/
def exit? : LinkExit ⊕ Option Profile → Option (Except SessionError Unit)
  | .inl (.ended result) => some (result.mapError .call)
  | .inl .crashed => none
  | .inr none => some (.error (.call .dropped))
  | .inr (some _) => none

/-- A finished run of a session that has not begun to restore. -/
def EndsUnrestored (R : Others) (a : Account) (t : List Event) (result : Except SessionError Unit)
    (b : Account) : Prop :=
  ∃ o u v a₁, t = u ++ v ∧ Run R (either link opening) a u (.done o) a₁ ∧ exit? o = some result ∧
    Run R (wrapUp result) a₁ v (.done (.finished result)) b

/-- What a session does with the result of its race. -/
def conclude : LinkExit ⊕ Except SessionError Unit → Program RunOutcome
  | .inl .crashed => do
    Program.update fun a => { a with readiness := withdraw a.readiness }
    return .crashed
  | .inl (.ended result) => wrapUp (result.mapError .call)
  | .inr result => wrapUp result

theorem run_eq : run = (either link body).bind conclude := by
  simp only [run, bind_eq_bind]
  congr 1
  funext o
  rcases o with (⟨_ | _⟩ | _) | _ <;> rfl

/-- Such a run is a run of the session. -/
theorem EndsUnrestored.run {R : Others} {a b : Account} {t : List Event}
    {result : Except SessionError Unit} (h : EndsUnrestored R a t result b) :
    Run R run a t (.done (.finished result)) b := by
  obtain ⟨o, u, v, a₁, rfl, hrace, ho, hwrap⟩ := h
  rw [run_eq, body_eq]
  rcases o with (ended | _) | _ | profile
  · cases ho
    exact (hrace.either_bind (.left _)).bind hwrap
  · cases ho
  · cases ho
    have hboth : Run R (either link (opening.bind restoring)) a u
        (.done (.inr (.error (.call .dropped)))) a₁ := hrace.either_bind (.right rfl)
    exact hboth.bind hwrap
  · cases ho

/-- The end of a run, taken apart. -/
theorem wrapUp_done {R : Others} {result : Except SessionError Unit} {a b : Account} {t : List Event}
    {outcome : RunOutcome} (h : Run R (wrapUp result) a t (.done outcome) b) :
    outcome = .finished result ∧
      ∃ a₁ b₁, R.may a a₁ ∧
        Run R persist { a₁ with started := false, readiness := withdraw a₁.readiness } t
          (.done ()) b₁ ∧ R.may b₁ b := by
  obtain ⟨_, t₁, t₂, a₂, rfl, hupdate, h₁⟩ := Run.bind_done h
  obtain ⟨_, t₃, t₄, a₃, rfl, hpersist, h₂⟩ := Run.bind_done h₁
  obtain ⟨rfl, a₁, ha, ha₂⟩ := hupdate.update_done
  obtain ⟨rfl, ho, hb⟩ := h₂.done_inv
  cases ho
  rw [List.nil_append, List.append_nil]
  exact ⟨rfl, a₁, a₃, ha, hpersist.shield_done.1.after_others ha₂, hb⟩

/-- What is held may be stored, if nothing of the protocol session waits to be written. -/
theorem run_persist {R : Others} {a : Account} {flow : LoginFlow} (hstore : a.store = .profile none)
    (hlogin : a.login = .free flow) :
    Run R persist a
      [.answered (.setMetadata a.profile (backup flow.tokens a.peers.backupUsers)) (.ok ())]
      (.done ()) a := by
  have hflush : Run R Store.flush a [] (.done (.ok ())) a := by
    refine Run.bind (.of_await rfl) ?_
    rw [hstore]
    exact .refl _ a
  have hflow : Run R Login.flow a [] (.done flow) { a with login := .free flow } :=
    Run.of_withLogin (b := { a with login := .taken }) hlogin (.refl _ _)
  have hback : { a with login := .free flow } = a := by rw [← hlogin]
  rw [hback] at hflow
  refine hflush.bind (hflow.bind (Run.bind (.of_await rfl) (Run.bind (.of_await rfl) ?_)))
  exact Run.bind (.of_external (.setMetadata a.profile (backup flow.tokens a.peers.backupUsers))
    (.ok ()) a) (.refl _ a)

/-- Such a session may end with any result. -/
theorem run_wrapUp {R : Others} {a : Account} {flow : LoginFlow} (result : Except SessionError Unit)
    (hstore : a.store = .profile none) (hlogin : a.login = .free flow) :
    Run R (wrapUp result) a
      [.answered (.setMetadata a.profile (backup flow.tokens a.peers.backupUsers)) (.ok ())]
      (.done (.finished result)) { a with started := false, readiness := withdraw a.readiness } := by
  let b : Account := { a with started := false, readiness := withdraw a.readiness }
  have hpersist : Run R (shield persist) b _ (.done ()) b :=
    (run_persist (a := b) hstore hlogin).of_shield_done (by simp)
  exact Run.bind (.of_await rfl) (hpersist.bind (.refl _ b))

/-- The connection may end while it is driven. -/
theorem run_linkTurns_ended {R : Others} (result : Except CallError Unit) (a : Account) :
    Run R (iterate () linkTurn) a [.answered .linkEvent (.ended result)] (.done (.ended result)) a :=
  Run.iterate_done (Run.bind (.of_external .linkEvent (.ended result) a) (.refl _ a))

/-- The connection may end before it is up. -/
theorem run_link_ended {R : Others} (result : Except CallError Unit) (a : Account) :
    Run R link a [.answered .connect (), .answered .linkEvent (.ended result)] (.done (.ended result))
      a :=
  Run.bind (.of_external .connect () a) (run_linkTurns_ended result a)

theorem restoring_ne_done (profile : Profile) (z : Except SessionError Unit) :
    restoring (some profile) ≠ .done z := by
  intro h
  simp only [restoring, takeTokens] at h
  split at h
  · split at h <;> cases h
  · cases h

/-- A finished run of a session is gone, or has not begun to restore, or has taken a step of that. -/
theorem run_cases {R : Others} {a b : Account} {t : List Event} {outcome : RunOutcome}
    (h : Run R run a t (.done outcome) b) :
    outcome = .crashed ∨
    (∃ result, outcome = .finished result ∧ EndsUnrestored R a t result b) ∨
    ∃ u l profile a₁ es q a₂, Run R (either link opening) a u (either l (.done (some profile))) a₁ ∧
      Step R (restoring (some profile)) a₁ es q a₂ := by
  rw [run_eq, body_eq] at h
  obtain ⟨o', u, v, a₁, rfl, hboth, hend⟩ := h.bind_done
  obtain ⟨o, hrace, ho⟩ | ⟨l, y, r, w, es, x, c, d, rfl, hrace, hs, -⟩ := hboth.either_bind_cases
  · cases ho with
    | left exit =>
      cases exit with
      | crashed =>
        obtain ⟨_, _, _, _, -, -, hdone⟩ := Run.bind_done hend
        cases hdone.done_inv.2.1
        exact .inl rfl
      | ended result =>
        obtain rfl := (wrapUp_done hend).1
        exact .inr (.inl ⟨_, rfl, _, _, _, _, rfl, hrace, rfl, hend⟩)
    | @right y z hz =>
      cases y with
      | none =>
        cases hz
        obtain rfl := (wrapUp_done hend).1
        exact .inr (.inl ⟨_, rfl, _, _, _, _, rfl, hrace, rfl, hend⟩)
      | some profile => exact absurd hz (restoring_ne_done profile z)
  · cases y with
    | none => exact hs.elim
    | some profile => exact .inr (.inr ⟨w, l, profile, c, es, r, d, hrace, hs⟩)

/-! ## What is kept -/

section

variable {R G : Others} {heard : Event → Prop}

/-- Driving the connection does nothing but report it. -/
theorem conforms_link (hconnection : ∀ a connection, G.may a { a with connection }) :
    link.Conforms R G heard SparesBackup := by
  refine conforms_external_bind fun _ _ => ⟨⟨trivial, trivial⟩, conforms_iterate fun _ => ?_⟩
  refine conforms_external_bind fun event _ => ⟨⟨trivial, trivial⟩, ?_⟩
  cases event with
  | connected => exact (conforms_update fun a => hconnection a .up).bind fun _ => conforms_done _
  | unreported =>
    exact (conforms_update fun a => hconnection a .dropped).bind fun _ => conforms_done _
  | ended result => exact conforms_done _
  | crashed => exact conforms_done _

theorem conforms_awaitConnection : awaitConnection.Conforms R G heard SparesBackup := by
  refine conforms_await fun a up a' h => ?_
  split at h <;> cases h <;> exact G.refl a

/-- Who is signed in, by the server's reply; nobody if there is no authorization. -/
def whoIs : Except CallError (List UserEntry) → Except CallError (Option User)
  | .ok users => .ok (users.findSome? UserEntry.user?)
  | .error e => if e.isUnauthorized then .ok none else .error e

/-- Tells everybody who is signed in, unless it is nobody. -/
def publish : Except CallError (Option User) → Program (Except CallError (Option User))
  | .ok (some user) => do
    Program.update fun a => { a with signal := a.signal.setUser (some user) }
    return .ok (some user)
  | reply => return reply

theorem refresh_eq : Login.refresh =
    (Pipeline.call (.getUsers [.self])).bind fun reply => publish (whoIs reply) := by
  refine (bind_assoc (Pipeline.call (.getUsers [.self])) _ _).trans
    (congrArg (Program.bind _) (funext fun reply => ?_))
  cases reply with
  | error e => by_cases he : e.isUnauthorized <;> simp only [whoIs, he, if_true] <;> rfl
  | ok users => rfl

/-- Asking who is signed in does nothing but learn from the answer, and publish it. -/
theorem conforms_refresh (hR : ∀ a b, R.may a b → G.may a b)
    (hpublish : ∀ b, heard (.answered (.call (.getUsers [.self])) b) →
      ∀ user, whoIs (Pipeline.outcome (.getUsers [.self]) b) = .ok (some user) →
        ∀ a, G.may a { a with signal := a.signal.setUser (some user) })
    (hlearn : ∀ b, heard (.answered (.call (.getUsers [.self])) b) →
      ∀ a, G.may a (Pipeline.learn (.getUsers [.self]) b a)) :
    Login.refresh.Conforms R G heard SparesBackup := by
  rw [refresh_eq]
  refine conforms_call_bind hR (fun _ _ => ⟨trivial, trivial⟩) fun b hb =>
    ⟨⟨trivial, trivial⟩, hlearn b hb, ?_⟩
  rcases hwho : whoIs (Pipeline.outcome (.getUsers [.self]) b) with e | _ | user
  · exact conforms_done _
  · exact conforms_done _
  · exact Conforms.bind (conforms_update (hpublish b hb user hwho)) fun _ => conforms_done _

/-- What the others keep, and what is kept by everything that can be learnt from an answer, and by telling
who is signed in, is kept until the session restores. -/
theorem conforms_opening_of_heard (hR : ∀ a b, R.may a b → G.may a b)
    (hpublish : ∀ b, heard (.answered (.call (.getUsers [.self])) b) →
      ∀ user, whoIs (Pipeline.outcome (.getUsers [.self]) b) = .ok (some user) →
        ∀ a, G.may a { a with signal := a.signal.setUser (some user) })
    (hlearn : ∀ b, heard (.answered (.call (.getUsers [.self])) b) →
      ∀ a, G.may a (Pipeline.learn (.getUsers [.self]) b a)) :
    opening.Conforms R G heard SparesBackup := by
  refine conforms_awaitConnection.bind fun up => ?_
  cases up with
  | false => exact conforms_done _
  | true =>
    exact (conforms_refresh hR hpublish hlearn).bind fun _ =>
      (conforms_currentProfile fun _ _ => ⟨trivial, trivial⟩).bind fun _ => conforms_done _

/-- What the others keep, what changes of the signal keep, and what is kept by everything that can be
learnt from an answer, is kept until the session restores. -/
theorem conforms_opening (hR : ∀ a b, R.may a b → G.may a b)
    (hsignal : ∀ a signal, G.may a { a with signal })
    (hlearn : ∀ b, heard (.answered (.call (.getUsers [.self])) b) →
      ∀ a, G.may a (Pipeline.learn (.getUsers [.self]) b a)) :
    opening.Conforms R G heard SparesBackup :=
  conforms_opening_of_heard hR (fun _ _ _ _ a => hsignal a _) hlearn

end

/-- The profile is kept, and no logout tokens are added. -/
def addsNoTokens : Others where
  may a b := b.profile = a.profile ∧ (HoldsNoTokens a → HoldsNoTokens b)
  refl _ := ⟨rfl, id⟩
  trans h h' := ⟨h'.1.trans h.1, h'.2 ∘ h.2⟩

/-- Before a session restores, it stores nothing and comes by no logout tokens. -/
theorem opening_addsNoTokens {a b : Account} {t : List Event}
    {q : Program (LinkExit ⊕ Option Profile)} (h : Run quiet (either link opening) a t q b) :
    addsNoTokens.may a b ∧ ∀ e ∈ t, SparesBackup e := by
  have hquiet (a b : Account) (h : quiet.may a b) : addsNoTokens.may a b := ⟨h.1, h.2.2⟩
  have hopening : (either link opening).Conforms quiet addsNoTokens (fun _ => True) SparesBackup := by
    refine conforms_either (conforms_link fun _ _ => ⟨rfl, id⟩)
      (conforms_opening hquiet (fun _ _ => ⟨rfl, id⟩) fun b _ a => ?_)
    cases b with
    | error e =>
      simp only [Pipeline.learn]
      split <;> exact ⟨rfl, id⟩
    | ok reply => exact ⟨rfl, id⟩
  have hconforms := h.conforms hquiet hopening fun _ _ => trivial
  exact ⟨hconforms.1, hconforms.2.1⟩

/-- The event is not a reply from the server. -/
def NoReply : Event → Prop
  | .answered (.call _) (.ok _) => False
  | _ => True

/-- Without a reply from the server the directory stays what it was until the session restores. -/
theorem opening_quiet {a b : Account} {t : List Event} {q : Program (LinkExit ⊕ Option Profile)}
    (h : Run quiet (either link opening) a t q b) (ht : ∀ e ∈ t, NoReply e) :
    b.peers = a.peers := by
  have hopening : (either link opening).Conforms quiet quiet NoReply SparesBackup := by
    refine conforms_either (conforms_link fun _ _ => ⟨rfl, rfl, id⟩)
      (conforms_opening (fun _ _ h => h) (fun _ _ => ⟨rfl, rfl, id⟩) fun b hb a => ?_)
    cases b with
    | error e =>
      simp only [Pipeline.learn]
      split <;> exact ⟨rfl, rfl, id⟩
    | ok reply => exact hb.elim
  exact (h.conforms (fun _ _ h => h) hopening ht).1.2.1

/-! ## What is left -/

/-- The logout tokens that metadata stores. -/
def storedTokens (m : Metadata) : Except Backup.Malformed (List ByteArray) :=
  Backup.toTokens ((m.get? MetadataKey.auth).getD "")

/-- The access hashes that metadata stores. -/
def storedHashes (m : Metadata) : Except Backup.Malformed (Table Int64 Int64) :=
  Backup.toHashes ((m.get? MetadataKey.peers).getD "")

/-- A session that ends before it restores writes the access hashes of its directory, and no tokens. -/
theorem EndsUnrestored.get?_metadataAfter {a b : Account} {t : List Event}
    {result : Except SessionError Unit} (h : EndsUnrestored quiet a t result b)
    (ha : HoldsNoTokens a) (htaken : ∀ e ∈ t, Taken e) (m : Metadata) :
    (metadataAfter a.profile m t).get? MetadataKey.auth = m.get? MetadataKey.auth ∧
      (metadataAfter a.profile m t).get? MetadataKey.peers =
        some ((Backup.ofHashes b.peers.backupUsers).getD "") ∧
      ((∀ e ∈ t, NoReply e) → b.peers = a.peers) := by
  obtain ⟨o, u, v, a₁, rfl, hopening, -, hwrap⟩ := h
  obtain ⟨⟨hprofile, hnone⟩, hspares⟩ := opening_addsNoTokens hopening
  obtain ⟨-, a₂, b₁, ha₂, hpersist, hb⟩ := wrapUp_done hwrap
  have htokens := ha₂.2.2 (hnone ha)
  have hpeers : b.peers = a₂.peers := hb.2.1.trans (persist_done hpersist htokens).1.2.1
  have hv : ∀ e ∈ v, Taken e := fun e he => htaken e (List.mem_append_right u he)
  obtain ⟨hauth, hhashes⟩ :=
    metadataAfter_persist hpersist htokens hv (metadataAfter a.profile m u)
  rw [show a₂.profile = a.profile from ha₂.1.trans hprofile] at hauth hhashes
  rw [metadataAfter_append, hpeers]
  refine ⟨hauth.trans ?_, hhashes, fun ht => ha₂.2.1.trans ?_⟩
  · exact Session.get?_metadataAfter (fun e he => (hspares e he).1) a.profile m
  · exact opening_quiet hopening fun e he => ht e (List.mem_append_left v he)

/-- A session that began with nothing in memory, and ended before it restored, leaves the stored logout
tokens as they were. The stored access hashes stay the same exactly if they are those of the directory;
if the server has not replied, exactly if there were none. -/
theorem EndsUnrestored.stored_iff {a b : Account} {t : List Event}
    {result : Except SessionError Unit} (h : EndsUnrestored quiet a t result b)
    (hpeers : a.peers = PeerDirectory.empty) (ha : HoldsNoTokens a) (htaken : ∀ e ∈ t, Taken e)
    (m : Metadata) :
    storedTokens (metadataAfter a.profile m t) = storedTokens m ∧
      (storedHashes (metadataAfter a.profile m t) = storedHashes m ↔
        storedHashes m = Backup.toHashes ((Backup.ofHashes b.peers.backupUsers).getD "")) ∧
      ((∀ e ∈ t, NoReply e) → (storedHashes (metadataAfter a.profile m t) = storedHashes m ↔
        storedHashes m = .ok Table.empty)) := by
  obtain ⟨hauth, hhashes, hlearnt⟩ := h.get?_metadataAfter ha htaken m
  have htokens : storedTokens (metadataAfter a.profile m t) = storedTokens m := by
    rw [storedTokens, storedTokens, hauth]
  have hleft : storedHashes (metadataAfter a.profile m t) =
      Backup.toHashes ((Backup.ofHashes b.peers.backupUsers).getD "") := by
    rw [storedHashes, hhashes]
    rfl
  refine ⟨htokens, ?_, fun ht => ?_⟩
  · rw [hleft]
    exact eq_comm
  · have hnone :
        Backup.toHashes ((Backup.ofHashes b.peers.backupUsers).getD "") = .ok Table.empty := by
      rw [hlearnt ht, hpeers]
      rfl
    rw [hleft, hnone]
    exact eq_comm

/-! ## Lost hashes -/

/-- An account that has just been set up. -/
def newAccount : Account := { config := default, profile := 0 }

/-- A profile in which the access hash 50 of user 5 is stored. -/
def oneHash : Metadata :=
  Table.ofList [(MetadataKey.peers, "eyI1Ijo1MH0")]

/-- The events of a run whose connection times out before it is up. -/
def timedOut : List Event :=
  [.answered .connect (), .answered .linkEvent (.ended (.error .timeout)),
    .answered (.setMetadata 0 (backup [] [])) (.ok ())]

theorem endsUnrestored_timedOut :
    ∃ b, EndsUnrestored quiet newAccount timedOut (.error (.call .timeout)) b := by
  let wrapped : Account := { newAccount with readiness := .lost }
  have hlink : Run quiet (either link opening) newAccount _ (.done (.inl (.ended (.error .timeout))))
      newAccount := Run.race_left_done (run_link_ended _ _)
  have hlogin : newAccount.login = .free {} := rfl
  have hwrap : Run quiet (wrapUp (.error (.call .timeout))) newAccount
      [.answered (.setMetadata 0 (backup [] [])) (.ok ())]
      (.done (.finished (.error (.call .timeout)))) wrapped := run_wrapUp _ rfl hlogin
  exact ⟨wrapped, _, _, _, newAccount, rfl, hlink, rfl, hwrap⟩

theorem storedHashes_oneHash : storedHashes oneHash ≠ .ok Table.empty := by
  have hsome : (storedHashes oneHash).toOption.all Table.isEmpty = false := by decide +kernel
  intro h
  rw [h] at hsome
  cases hsome

theorem taken_timedOut : ∀ e ∈ timedOut, Taken e := by
  simp [timedOut, Taken]

theorem noReply_timedOut : ∀ e ∈ timedOut, NoReply e := by
  simp [timedOut, NoReply]

theorem holdsNoTokens_newAccount : HoldsNoTokens newAccount := by
  intro flow h
  cases h
  rfl

/-- When the connection times out, a stored access hash is lost. -/
theorem unrestored_hashes_lost :
    ¬ ∀ (a b : Account) (t : List Event) (result : Except SessionError Unit) (m : Metadata),
      EndsUnrestored quiet a t result b → a.peers = PeerDirectory.empty → HoldsNoTokens a →
        (∀ e ∈ t, Taken e) → storedTokens (metadataAfter a.profile m t) = storedTokens m ∧
          storedHashes (metadataAfter a.profile m t) = storedHashes m := by
  intro h
  obtain ⟨b, hb⟩ := endsUnrestored_timedOut
  have hsame := (h newAccount b timedOut _ oneHash hb rfl holdsNoTokens_newAccount
    taken_timedOut).2
  have hnone :
      storedHashes (metadataAfter newAccount.profile oneHash timedOut) = .ok Table.empty := rfl
  exact storedHashes_oneHash (hsame.symm.trans hnone)

/-- The stored hash is not the same after the run that times out, as there was one. -/
theorem stored_iff_timedOut : ∃ b,
    EndsUnrestored quiet newAccount timedOut (.error (.call .timeout)) b ∧
    newAccount.peers = PeerDirectory.empty ∧ HoldsNoTokens newAccount ∧ (∀ e ∈ timedOut, Taken e) ∧
    (∀ e ∈ timedOut, NoReply e) ∧
    storedTokens (metadataAfter newAccount.profile oneHash timedOut) = storedTokens oneHash ∧
    storedHashes (metadataAfter newAccount.profile oneHash timedOut) ≠ storedHashes oneHash := by
  obtain ⟨b, hb⟩ := endsUnrestored_timedOut
  obtain ⟨htokens, -, hhashes⟩ :=
    hb.stored_iff rfl holdsNoTokens_newAccount taken_timedOut oneHash
  exact ⟨b, hb, rfl, holdsNoTokens_newAccount, taken_timedOut, noReply_timedOut, htokens,
    fun h => storedHashes_oneHash ((hhashes noReply_timedOut).1 h)⟩

end Telebridge.Session
