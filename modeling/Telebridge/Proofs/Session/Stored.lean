import Telebridge.Proofs.Account.PeerDirectory
import Telebridge.Proofs.Login.Tokens
import Telebridge.Proofs.Session.Ready
set_option autoImplicit false

/-! # What a ready session stores and restores

A session that became ready and has ended leaves metadata from which exactly the logout tokens and the
access hashes can be restored that the account holds (`EndsReady.stored`). A session that becomes ready
has added the stored tokens to those that are held, and the stored hashes that were missing
(`BecomesReady.restores`). These are runs of the session among others that keep its profile
(`EndsReady.run_lawful`), and the operations of the login keep to what is asked of the others
(`holds_operation`). -/

namespace Telebridge.Session

open Program

/-! ## The others -/

/-- No more logout tokens are held than an account keeps. -/
def Capped (a : Account) : Prop :=
  ∀ flow, a.login = .free flow → flow.tokens.length ≤ LoginFlow.maxTokens

/-- There are logout tokens, if the login flow can be looked at. -/
def HoldsTokens (a : Account) : Prop :=
  ∀ flow, a.login = .free flow → flow.tokens ≠ []

/-- The others may log in and out, and do anything else, for the same profile. -/
def lawful : Others where
  may a b := b.profile = a.profile ∧ (Capped a → Capped b)
  refl _ := ⟨rfl, id⟩
  trans h h' := ⟨h'.1.trans h.1, h'.2 ∘ h.2⟩

/-- The others may do the same, but where `P` holds they never drop all logout tokens. -/
def holding (P : Prop) : Others where
  may a b := lawful.may a b ∧ (P → HoldsTokens a → HoldsTokens b)
  refl a := ⟨lawful.refl a, fun _ => id⟩
  trans h h' := ⟨lawful.trans h.1 h'.1, fun hP => h'.2 hP ∘ h.2 hP⟩

/-- The others leave the login flow, the directory and the profile alone. -/
def still : Others where
  may a b := b.login = a.login ∧ b.peers = a.peers ∧ b.profile = a.profile
  refl _ := ⟨rfl, rfl, rfl⟩
  trans h h' := ⟨h'.1.trans h.1, h'.2.1.trans h.2.1, h'.2.2.trans h.2.2⟩

variable {P : Prop} {a b : Account}

theorem holding_of_eq (hlogin : b.login = a.login) (hprofile : b.profile = a.profile) :
    (holding P).may a b :=
  ⟨⟨hprofile, fun h flow hflow => h flow (hlogin ▸ hflow)⟩, fun _ h flow hflow =>
    h flow (hlogin ▸ hflow)⟩

theorem lawful_of_holding (a b : Account) (h : (holding P).may a b) : lawful.may a b := h.1

theorem holding_of_still (a b : Account) (h : still.may a b) : (holding P).may a b :=
  holding_of_eq h.1 h.2.2

theorem lawful_of_still (a b : Account) (h : still.may a b) : lawful.may a b :=
  (holding_of_still (P := True) a b h).1

/-- With such others a finished run that became ready is a run of the session. -/
theorem EndsReady.run_lawful {t : List Event} {result : Except SessionError Unit}
    (h : EndsReady lawful (holding P) still a t result b) :
    Run lawful Session.run a t (.done (.finished result)) b :=
  (h.mono (fun _ _ h => h) lawful_of_holding lawful_of_still).run

/-- An operation of the login keeps to what the others keep to. -/
theorem holds_operation {β : Type} {step : LoginFlow → Program (β × LoginFlow)} {r : β}
    {t : List Event} (h : Login.Operation step)
    (hrun : Run (holding P) (withLogin step) a t (.done r) b) :
    (Capped a → Capped b) ∧ (P → HoldsTokens a → HoldsTokens b) := by
  obtain ⟨flow, flow', x, y, hx, hflow, hkeeps, hflow', hy⟩ := h.run_done hrun
  refine ⟨fun ha => hy.1.2 fun f hf => ?_, fun hP ha => hy.2 hP fun f hf => ?_⟩
  · rw [hflow'] at hf
    cases hf
    exact hkeeps.length_le (hx.1.2 ha flow hflow)
  · rw [hflow'] at hf
    cases hf
    exact hkeeps.ne_nil (hx.2 hP ha flow hflow)

/-! ## Metadata that is read -/

/-- Two pieces of metadata store the same backup. -/
def SameBackup (m m' : Metadata) : Prop :=
  m.get? MetadataKey.auth = m'.get? MetadataKey.auth ∧
    m.get? MetadataKey.peers = m'.get? MetadataKey.peers

theorem SameBackup.restorable {m m' : Metadata} (h : SameBackup m m') :
    restorable m = restorable m' := by
  rw [Session.restorable, Session.restorable, storedTokens, storedTokens, h.1]

theorem SameBackup.storedHashes {m m' : Metadata} (h : SameBackup m m') :
    storedHashes m = storedHashes m' := by
  rw [Session.storedHashes, Session.storedHashes, h.2]

/-- Whenever the profile is read, it has the backup that was stored last. -/
def Shows (id : ProfileId) (m : Metadata) : List Event → Prop
  | [] => True
  | e :: t => (∀ seen, e = .answered (.profile id) seen → SameBackup seen.metadata m) ∧
      Shows id (merge id m e) t

theorem shows_append {id : ProfileId} {m : Metadata} {t u : List Event} :
    Shows id m (t ++ u) ↔ Shows id m t ∧ Shows id (metadataAfter id m t) u := by
  induction t generalizing m with
  | nil => exact ⟨fun h => ⟨trivial, h⟩, fun h => h.2⟩
  | cons e t ih =>
    simp only [List.cons_append, Shows, ih, and_assoc]
    exact Iff.rfl

/-- As long as no backup is stored, the first one is read. -/
theorem Shows.seen {id : ProfileId} {m : Metadata} {t : List Event} {seen : Profile}
    (h : Shows id m t) (hspares : ∀ e ∈ t, SparesBackup e)
    (hmem : .answered (.profile id) seen ∈ t) : SameBackup seen.metadata m := by
  induction t generalizing m with
  | nil => cases hmem
  | cons e t ih =>
    rcases List.mem_cons.1 hmem with he | hmem
    · exact h.1 seen he.symm
    · have hsame := ih h.2 (fun e he => hspares e (List.mem_cons_of_mem _ he)) hmem
      obtain ⟨hauth, hpeers⟩ := hspares e List.mem_cons_self
      exact ⟨hsame.1.trans (get?_merge hauth id m), hsame.2.trans (get?_merge hpeers id m)⟩

/-! ## The parts of a run -/

theorem still_connection (a : Account) (connection : Connection) :
    still.may a { a with connection } := ⟨rfl, rfl, rfl⟩

/-- Driving the connection is of no concern to logins and peers. -/
theorem conforms_link_still {R : Others} :
    link.Conforms R still (fun _ => True) SparesBackup :=
  conforms_link still_connection

section

variable {K : Others} {t : List Event}

/-- Who is signed in is asked, and may be published. -/
theorem refresh_done (hsignal : ∀ a signal, K.may a { a with signal })
    {r : Except CallError (Option User)} (h : Run K Login.refresh a t (.done r) b) :
    ∃ answer x, .answered (.call (.getUsers [.self])) answer ∈ t ∧ K.may a x ∧
      K.may (Pipeline.learn (.getUsers [.self]) answer x) b := by
  obtain ⟨who, t₁, t₂, a₁, rfl, hwho, h₁⟩ := h.bind_done
  obtain ⟨r', t₃, t₄, a₂, rfl, hcall, h₂⟩ := hwho.bind_done
  obtain ⟨answer, x, hexchange, -, hx, ha₂⟩ := hcall.call_done
  have ha₁ : K.may a₂ a₁ := by
    cases r' with
    | ok users => exact h₂.done_inv.2.2
    | error e =>
      simp only at h₂
      split at h₂ <;> exact h₂.done_inv.2.2
  have hb : K.may a₁ b := by
    split at h₁
    · next user =>
      obtain ⟨_, t₅, t₆, a₃, rfl, hupdate, h₃⟩ := h₁.bind_done
      obtain ⟨rfl, y, hy, ha₃⟩ := hupdate.update_done
      exact K.trans hy (K.trans (hsignal y _) (K.trans ha₃ h₃.done_inv.2.2))
    · exact h₁.done_inv.2.2
  refine ⟨answer, x, ?_, hx, K.trans ha₂ (K.trans ha₁ hb)⟩
  exact List.mem_append_left _ (List.mem_append_left _ hexchange.answer_mem)

theorem currentProfile_done {profile : Profile} (hprofile : ∀ a b, K.may a b → b.profile = a.profile)
    (h : Run K currentProfile a t (.done profile) b) :
    .answered (.profile a.profile) profile ∈ t ∧ K.may a b := by
  obtain ⟨x, hx, rfl, hb⟩ := h.currentProfile_done
  rw [← hprofile _ _ hx]
  exact ⟨List.mem_singleton.2 rfl, K.trans hx hb⟩

/-- Before anything is claimed, the server has answered who is signed in, and the profile was read. -/
theorem opening_done (hsignal : ∀ a signal, K.may a { a with signal })
    (hprofile : ∀ a b, K.may a b → b.profile = a.profile) {profile : Profile}
    (h : Run K opening a t (.done (some profile)) b) :
    .answered (.profile a.profile) profile ∈ t ∧
    ∃ answer x, .answered (.call (.getUsers [.self])) answer ∈ t ∧ K.may a x ∧
      K.may (Pipeline.learn (.getUsers [.self]) answer x) b := by
  obtain ⟨up, t₁, t₂, a₁, rfl, hup, h₁⟩ := h.bind_done
  obtain ⟨rfl, x, y, hx, hf, ha₁⟩ := hup.await_done
  cases up with
  | false => cases h₁.done_inv.2.1
  | true =>
    have hxy : y = x := by
      split at hf
      · cases hf
      · cases hf
        rfl
      · cases hf
    subst hxy
    obtain ⟨r, t₃, t₄, a₂, rfl, hrefresh, h₂⟩ := Run.bind_done h₁
    obtain ⟨profile', t₅, t₆, a₃, rfl, hread, h₃⟩ := h₂.bind_done
    obtain ⟨answer, z, hanswer, hz, ha₂⟩ := refresh_done hsignal hrefresh
    obtain ⟨hseen, ha₃⟩ := currentProfile_done hprofile hread
    obtain ⟨rfl, hdone, hb⟩ := h₃.done_inv
    cases hdone
    have hsame : a₂.profile = a.profile := by
      rw [hprofile _ _ ha₂, Pipeline.learn_profile, hprofile _ _ hz, hprofile _ _ ha₁,
        hprofile _ _ hx]
    rw [hsame] at hseen
    exact ⟨by simp [hseen], answer, z, by simp [hanswer], K.trans hx (K.trans ha₁ hz),
      K.trans ha₂ (K.trans ha₃ hb)⟩

/-- Tokens are claimed where the profile has some, and the login flow is taken for it. -/
theorem claiming_done (hsignal : ∀ a signal, K.may a { a with signal })
    (hprofile : ∀ a b, K.may a b → b.profile = a.profile) {claim : Claim}
    (h : Run K claiming a t (.done claim) b) (hclaim : claim ≠ .unconnected) :
    ∃ profile answer x y, .answered (.profile a.profile) profile ∈ t ∧
      .answered (.call (.getUsers [.self])) answer ∈ t ∧ K.may a x ∧
      K.may (Pipeline.learn (.getUsers [.self]) answer x) y ∧
      (restorable profile.metadata = [] ∧ claim = .noTokens ∧ K.may y b ∨
        restorable profile.metadata ≠ [] ∧ ∃ flow, y.login = .free flow ∧
          claim = .tokens (flow.restoreTokens (restorable profile.metadata)) ∧
          K.may { y with login := .taken } b) := by
  obtain ⟨o, t₁, t₂, a₁, rfl, hopening, h₁⟩ := h.bind_done
  cases o with
  | none =>
    cases h₁.done_inv.2.1
    exact absurd rfl hclaim
  | some profile =>
    obtain ⟨hseen, answer, x, hanswer, hx, hlearnt⟩ := opening_done hsignal hprofile hopening
    simp only at h₁
    split at h₁
    · next hempty =>
      obtain ⟨rfl, hdone, hb⟩ := h₁.done_inv
      cases hdone
      exact ⟨profile, answer, x, a₁, by simp [hseen], by simp [hanswer], hx, hlearnt,
        .inl ⟨List.isEmpty_iff.1 hempty, rfl, hb⟩⟩
    · next hempty =>
      obtain ⟨flow, t₃, t₄, a₂, rfl, htake, h₂⟩ := h₁.bind_done
      obtain ⟨rfl, y, y', hy, hf, ha₂⟩ := htake.await_done
      obtain ⟨rfl, hdone, hb⟩ := h₂.done_inv
      cases hdone
      refine ⟨profile, answer, x, y, by simp [hseen], by simp [hanswer], hx, K.trans hlearnt hy,
        .inr ⟨fun h => hempty (List.isEmpty_iff.2 h), ?_⟩⟩
      split at hf
      · next flow' hflow =>
        simp only [Option.some.injEq, Prod.mk.injEq] at hf
        obtain ⟨rfl, rfl⟩ := hf
        exact ⟨flow', hflow, rfl, K.trans ha₂ hb⟩
      · cases hf

end

/-! ## What the parts do -/

section

variable {R G : Others}

/-- What is done before tokens are put back, after the opening. -/
theorem conforms_claiming_of_opening {heard : Event → Prop}
    (hopening : opening.Conforms R G heard SparesBackup)
    (htake : ∀ a, G.may a { a with login := .taken }) : claiming.Conforms R G heard SparesBackup := by
  refine hopening.bind fun o => ?_
  cases o with
  | none => exact conforms_done _
  | some profile =>
    simp only
    split
    · exact conforms_done _
    · refine Conforms.bind (conforms_await fun a flow b h => ?_) fun flow => conforms_done _
      split at h
      · cases h
        exact htake a
      · cases h

/-- What is done before tokens are put back. -/
theorem conforms_claiming (hR : ∀ a b, R.may a b → G.may a b)
    (hsignal : ∀ a signal, G.may a { a with signal })
    (hlearn : ∀ request answer a, G.may a (Pipeline.learn request answer a))
    (htake : ∀ a, G.may a { a with login := .taken }) :
    claiming.Conforms R G (fun _ => True) SparesBackup :=
  conforms_claiming_of_opening (conforms_opening hR hsignal fun b _ => hlearn _ b) htake

/-- What is done after tokens were put back touches neither the login flow nor the profile, nor the
sign-in signal. -/
theorem conforms_announce {heard : Event → Prop}
    (hG : ∀ a b, b.login = a.login → b.profile = a.profile → b.signal = a.signal → G.may a b) :
    announce.Conforms R G heard SparesBackup := by
  have hrestore : restorePeers.Conforms R G heard SparesBackup := by
    refine (conforms_currentProfile fun _ _ => ⟨trivial, trivial⟩).bind fun profile => ?_
    split
    · exact conforms_update fun a => hG _ _ rfl rfl rfl
    · exact conforms_done _
  refine hrestore.bind fun _ => Conforms.bind (conforms_update fun a => hG _ _ ?_ ?_ ?_) fun _ => ?_
  · rfl
  · rfl
  · rfl
  · refine Conforms.bind (conforms_await fun a up b h => ?_) fun up => ?_
    · split at h <;> cases h <;> exact hG _ _ rfl rfl rfl
    · cases up <;> exact conforms_done _

theorem conforms_watching (hR : ∀ a b, R.may a b → G.may a b)
    (hG : ∀ a b, b.login = a.login → b.profile = a.profile → G.may a b)
    (result : Except SessionError Unit) :
    (watching result).Conforms R G (fun _ => True) SparesBackup := by
  have htolerates : Watch.Tolerates G :=
    { learn := fun _ _ _ => hG _ _ (Pipeline.learn_login ..) (Pipeline.learn_profile ..)
      purge := fun _ => hG _ _ rfl rfl
      take := fun _ _ => hG _ _ rfl rfl
      subscribe := fun _ => hG _ _ rfl rfl
      unsubscribe := fun _ _ => hG _ _ rfl rfl }
  have hshown (e : Event) (he : Watch.Watched e) : SparesBackup e := by
    cases he <;> exact ⟨trivial, trivial⟩
  cases result with
  | ok =>
    exact ((Watch.conforms_run hR htolerates).mono (fun _ _ h => h) hshown).bind fun _ =>
      conforms_done _
  | error e => exact conforms_done _

end

/-- The others may do anything. -/
def anyone : Others where
  may _ _ := True
  refl _ := trivial
  trans _ _ := trivial

theorem conforms_restored {R : Others} (claim : Claim) :
    (restored claim).Conforms R anyone (fun _ => True) SparesBackup := by
  have hannounce : announce.Conforms R anyone (fun _ => True) SparesBackup :=
    conforms_announce fun _ _ _ _ _ => trivial
  cases claim with
  | unconnected => exact conforms_done _
  | noTokens => exact hannounce
  | tokens flow => exact Conforms.bind (conforms_update fun _ => trivial) fun _ => hannounce

/-- A session that becomes ready stores no backup, and its parts run one after the other, with whatever
drives the connection as one of the others. -/
theorem BecomesReady.parts {R S : Others} {t : List Event} {l : Program LinkExit}
    (hSR : ∀ a b, S.may a b → R.may a b) (hS : ∀ a b, still.may a b → S.may a b)
    (h : BecomesReady R S a t l b) :
    (∀ e ∈ t, SparesBackup e) ∧ l.Conforms S still (fun _ => True) SparesBackup ∧
    ∃ claim u v a₁, (u ++ v).Sublist t ∧ Run R claiming a u (.done claim) a₁ ∧
      Run S (restored claim) a₁ v (.done (.ok ())) b := by
  obtain ⟨claim, l₁, u, v, a₁, rfl, hclaim, hrestored⟩ := h
  have hany (R : Others) (a b : Account) (_ : R.may a b) : anyone.may a b := trivial
  have hlink : link.Conforms R anyone (fun _ => True) SparesBackup := conforms_link fun _ _ => trivial
  have hclaiming : claiming.Conforms R anyone (fun _ => True) SparesBackup :=
    conforms_claiming (hany R) (fun _ _ => trivial) (fun _ _ _ => trivial) fun _ => trivial
  obtain ⟨-, hu, -⟩ :=
    hclaim.conforms (hany R) (conforms_either hlink hclaiming) fun _ _ => trivial
  obtain ⟨hl₁, u', hu', hclaimed⟩ := hclaim.right_of_either conforms_link_still
    (fun _ _ => trivial) (fun _ _ h => h) fun a b h => hSR a b (hS a b h)
  have hl₁ : l₁.Conforms S still (fun _ => True) SparesBackup := hl₁.of_fewer hSR
  obtain ⟨-, hv, -⟩ := hrestored.conforms (hany S)
    (conforms_either (hl₁.mono (hany still) fun _ => id) (conforms_restored claim)) fun _ _ => trivial
  obtain ⟨hl, v', hv', hreported⟩ := hrestored.right_of_either hl₁ (fun _ _ => trivial)
    (fun _ _ h => h) hS
  refine ⟨fun e he => ?_, hl, claim, u', v', a₁, hu'.append hv', hclaimed, hreported⟩
  rcases List.mem_append.1 he with he | he
  · exact hu e he
  · exact hv e he

/-- When a session becomes ready, logout tokens are held if some were stored. -/
theorem BecomesReady.holds {m : Metadata} {t : List Event} {l : Program LinkExit}
    (h : BecomesReady lawful (holding (restorable m ≠ [])) a t l b) (ha : Capped a)
    (hshows : Shows a.profile m t) :
    b.profile = a.profile ∧ Capped b ∧ (restorable m ≠ [] → HoldsTokens b) := by
  obtain ⟨hspares, -, claim, u, v, a₁, hsub, hclaimed, hreported⟩ :=
    h.parts lawful_of_holding holding_of_still
  have hlawful_of_eq (a b : Account) (hlogin : b.login = a.login) (hprofile : b.profile = a.profile) :
      lawful.may a b := (holding_of_eq (P := True) hlogin hprofile).1
  have hconnected : claim ≠ .unconnected := by
    rintro rfl
    cases hreported.done_inv.2.1
  obtain ⟨profile, answer, x, y, hseen, -, hx, hy, hcases⟩ :=
    claiming_done (fun _ _ => hlawful_of_eq _ _ rfl rfl) (fun _ _ h => h.1) hclaimed hconnected
  have hxy : lawful.may x y := lawful.trans
    (hlawful_of_eq _ _ (Pipeline.learn_login ..) (Pipeline.learn_profile ..)) hy
  have hay := lawful.trans hx hxy
  rw [(hshows.seen hspares (hsub.subset (List.mem_append_left v hseen))).restorable] at hcases
  have hannounce : announce.Conforms (holding (restorable m ≠ [])) (holding (restorable m ≠ []))
      (fun _ => True) SparesBackup := conforms_announce fun _ _ hlogin hprofile _ => holding_of_eq hlogin hprofile
  obtain ⟨hnone, rfl, ha₁⟩ | ⟨hsome, flow, hflow, rfl, ha₁⟩ := hcases
  · -- nothing was put back
    have hb := (hreported.conforms (fun _ _ h => h) hannounce fun _ _ => trivial).1.1
    have hab := lawful.trans hay (lawful.trans ha₁ hb)
    exact ⟨hab.1, hab.2 ha, fun h => absurd hnone h⟩
  · -- after the tokens were put back there are some
    have htokens : (flow.restoreTokens (restorable m)).tokens ≠ [] := flow.restoreTokens_ne_nil hsome
    have hlength : (flow.restoreTokens (restorable m)).tokens.length ≤ LoginFlow.maxTokens :=
      LoginFlow.length_restoreTokens (hay.2 ha flow hflow) _
    obtain ⟨_, t₁, t₂, a₂, rfl, hupdate, h₂⟩ := Run.bind_done hreported
    obtain ⟨rfl, z, hz, ha₂⟩ := hupdate.update_done
    have hb := (holding _).trans ha₂ (h₂.conforms (fun _ _ h => h) hannounce fun _ _ => trivial).1
    have hprofile : z.profile = a.profile := hz.1.1.trans (ha₁.1.trans hay.1)
    refine ⟨hb.1.1.trans hprofile, hb.1.2 fun _ h => ?_, fun hP => hb.2 hP fun _ h => ?_⟩
    · cases h
      exact hlength
    · cases h
      exact htokens

/-! ## What is stored -/

/-- The login flow is looked at and left as it is. -/
theorem flow_still {t : List Event} {flow : LoginFlow}
    (h : Run still Login.flow a t (.done flow) b) :
    a.login = .free flow ∧ still.may a b := by
  obtain ⟨f, f', x, y, hx, hf, hlook, hb⟩ := h.withLogin_done
  obtain ⟨-, hflow, hy⟩ := hlook.done_inv
  cases hflow
  have hlogin : a.login = .free flow := hx.1.symm.trans hf
  exact ⟨hlogin, hb.1.trans hlogin.symm, hb.2.1.trans (hy.2.1.trans hx.2.1),
    hb.2.2.trans (hy.2.2.trans hx.2.2)⟩

/-- A session stores the logout tokens and the access hashes that the account holds, last of all. -/
theorem persist_still {t : List Event} (h : Run still persist a t (.done ()) b) :
    ∃ flow u r, a.login = .free flow ∧ still.may a b ∧ (∀ e ∈ u, SparesBackup e) ∧
      t = u ++ [.answered (.setMetadata a.profile (backup flow.tokens a.peers.backupUsers)) r] := by
  obtain ⟨flow, u, r, w, x, y, z, hw, hflow, hy, hz, hb, hu, rfl⟩ :=
    persist_parts (R := still) (fun _ _ => ⟨rfl, rfl, rfl⟩) h
  obtain ⟨hlogin, hx⟩ := flow_still hflow
  have hay : still.may a y := still.trans hw (still.trans hx hy)
  have haz : still.may a z := still.trans hay hz
  exact ⟨flow, u, r, hw.1.symm.trans hlogin, still.trans haz hb, hu, by rw [hay.2.1, haz.2.2]⟩

/-- Tokens that were stored can be restored; where there were none, what was stored before can. -/
theorem restorable_stored {m m' : Metadata} {tokens : List ByteArray}
    (hauth : m'.get? MetadataKey.auth = (Backup.ofTokens tokens).or (m.get? MetadataKey.auth))
    (hlength : tokens.length ≤ LoginFlow.maxTokens) (hnone : tokens = [] → restorable m = []) :
    restorable m' = tokens := by
  cases htext : Backup.ofTokens tokens with
  | none =>
    obtain rfl := Backup.ofTokens_eq_none htext
    rw [htext, Option.none_or] at hauth
    rw [← hnone rfl, restorable, restorable, storedTokens, storedTokens, hauth]
  | some text =>
    rw [htext, Option.some_or] at hauth
    have hread := Backup.toTokens_stored htext 0
    rw [show text ++ Backup.pad 0 = text from String.append_empty,
      List.take_of_length_le hlength] at hread
    rw [restorable, storedTokens, hauth, Option.getD_some, hread]

/-- A run that is not gone is wrapped up. -/
theorem conclude_done {Q : Others} {o : LinkExit ⊕ Except SessionError Unit} {t : List Event}
    {result : Except SessionError Unit}
    (h : Run Q (conclude o) a t (.done (.finished result)) b) :
    Run Q (wrapUp result) a t (.done (.finished result)) b := by
  have hwrap {result' : Except SessionError Unit}
      (h : Run Q (wrapUp result') a t (.done (.finished result)) b) :
      Run Q (wrapUp result) a t (.done (.finished result)) b := by
    cases (wrapUp_done h).1
    exact h
  rcases o with (result' | _) | result'
  · exact hwrap h
  · obtain ⟨_, _, _, _, -, -, hdone⟩ := Run.bind_done h
    cases hdone.done_inv.2.1
  · exact hwrap h

/-- What a session that became ready leaves behind when it ends: its profile stores, so that they can be
restored, the logout tokens and the access hashes of users that the account holds. -/
theorem EndsReady.stored {m : Metadata} {t : List Event} {result : Except SessionError Unit}
    (h : EndsReady lawful (holding (restorable m ≠ [])) still a t result b) (ha : Capped a)
    (hshows : Shows a.profile m t) (htaken : ∀ e ∈ t, Taken e) :
    ∃ flow, b.login = .free flow ∧ flow.tokens.length ≤ LoginFlow.maxTokens ∧
      restorable (metadataAfter a.profile m t) = flow.tokens ∧
      storedHashes (metadataAfter a.profile m t) = .ok (Table.ofList b.peers.backupUsers) := by
  obtain ⟨l, u, v, w, o, a₁, a₂, rfl, hready, hwatch, hend⟩ := h
  obtain ⟨hu, hl, -⟩ := hready.parts lawful_of_holding holding_of_still
  obtain ⟨hprofile₁, hcapped₁, hholds₁⟩ := hready.holds ha (shows_append.1 hshows).1
  -- watching
  have hwatching : (either l (watching (.ok ()))).Conforms (holding (restorable m ≠ []))
      (holding (restorable m ≠ [])) (fun _ => True) SparesBackup :=
    conforms_either (hl.mono holding_of_still fun _ => id)
      (conforms_watching (fun _ _ h => h) (fun _ _ => holding_of_eq) _)
  obtain ⟨ha₂, hv, -⟩ := hwatch.conforms (fun _ _ h => h) hwatching fun _ _ => trivial
  -- wrapping up
  obtain ⟨-, a₃, b₁, ha₃, hpersist, hb⟩ := wrapUp_done (conclude_done hend)
  obtain ⟨flow, w', r, hlogin, hb₁, hw', rfl⟩ := persist_still hpersist
  have hlogin₂ : a₂.login = .free flow := ha₃.1.symm.trans hlogin
  have hprofile₃ : a₃.profile = a.profile := ha₃.2.2.trans (ha₂.1.1.trans hprofile₁)
  have hlength := ha₂.1.2 hcapped₁ flow hlogin₂
  let last : Event :=
    .answered (.setMetadata a₃.profile (backup flow.tokens a₃.peers.backupUsers)) r
  have hr : Taken last := htaken last (by simp [last])
  obtain rfl : r = .ok () := hr
  have hspares : ∀ e ∈ u ++ (v ++ w'), SparesBackup e := by
    intro e he
    simp only [List.mem_append] at he
    obtain he | he | he := he
    · exact hu e he
    · exact hv e he
    · exact hw' e he
  have hafter (key : String) : (metadataAfter a.profile m (u ++ (v ++ (w' ++ [last])))).get? key =
      ((backup flow.tokens a₃.peers.backupUsers).get? key).or
        ((metadataAfter a.profile m (u ++ (v ++ w'))).get? key) := by
    rw [← List.append_assoc v, ← List.append_assoc u, metadataAfter_append,
      metadataAfter_singleton, merge, if_pos hprofile₃, Table.get?_insertAll_toList]
  obtain ⟨hauth, hpeers⟩ := get?_backup flow.tokens a₃.peers.backupUsers
  refine ⟨flow, (hb.1.trans hb₁.1).trans hlogin, hlength, restorable_stored (m := m) ?_ hlength ?_, ?_⟩
  · rw [hafter, hauth, get?_metadataAfter (fun e he => (hspares e he).1)]
  · intro hnil
    -- tokens that were restored have not been dropped
    refine Classical.byContradiction fun hsome => ?_
    exact ha₂.2 hsome (hholds₁ hsome) flow hlogin₂ hnil
  · have hbpeers : b.peers = a₃.peers := hb.2.1.trans hb₁.2.1
    rw [storedHashes, hafter, hpeers, Option.some_or, Option.getD_some, hbpeers,
      Backup.toHashes_ofHashes]

/-! ## What is restored -/

/-- Restoring reads the profile, and adds the stored access hashes that were missing. -/
theorem restorePeers_done {t : List Event} (h : Run still restorePeers a t (.done ()) b) :
    ∃ profile, .answered (.profile a.profile) profile ∈ t ∧ b.login = a.login ∧
      b.profile = a.profile ∧
      ∀ users, storedHashes profile.metadata = .ok users →
        b.peers = a.peers.restoreUsers users.toList := by
  obtain ⟨profile, t₁, t₂, a₁, rfl, hread, h₁⟩ := Run.bind_done h
  obtain ⟨hseen, ha₁⟩ := currentProfile_done (K := still) (fun _ _ h => h.2.2) hread
  have hstored : storedHashes profile.metadata =
      Backup.toHashes (profile.metadataText MetadataKey.peers) := rfl
  refine ⟨profile, List.mem_append_left _ hseen, ?_⟩
  split at h₁
  · next users' husers =>
    obtain ⟨rfl, x, hx, hb⟩ := h₁.update_done
    refine ⟨hb.1.trans (hx.1.trans ha₁.1), hb.2.2.trans (hx.2.2.trans ha₁.2.2), fun users hs => ?_⟩
    rw [hstored, husers] at hs
    cases hs
    rw [hb.2.1, hx.2.1, ha₁.2.1]
  · next husers =>
    obtain ⟨rfl, -, hb⟩ := h₁.done_inv
    refine ⟨hb.1.trans ha₁.1, hb.2.2.trans ha₁.2.2, fun users hs => ?_⟩
    rw [hstored, husers] at hs
    cases hs

/-- The same holds up to the report. -/
theorem announce_done {t : List Event} {r : Except SessionError Unit}
    (h : Run still announce a t (.done r) b) :
    ∃ profile, .answered (.profile a.profile) profile ∈ t ∧ b.login = a.login ∧
      b.profile = a.profile ∧
      ∀ users, storedHashes profile.metadata = .ok users →
        b.peers = a.peers.restoreUsers users.toList := by
  obtain ⟨_, t₁, t₂, a₁, rfl, hrestore, h₁⟩ := Run.bind_done h
  obtain ⟨_, t₃, t₄, a₂, rfl, hstarted, h₂⟩ := Run.bind_done h₁
  obtain ⟨up, t₅, t₆, a₃, rfl, hreport, h₃⟩ := Run.bind_done h₂
  obtain ⟨profile, hseen, hlogin, hprofile, hpeers⟩ := restorePeers_done hrestore
  obtain ⟨rfl, x, hx, ha₂⟩ := hstarted.update_done
  obtain ⟨rfl, y, z, hy, hf, ha₃⟩ := hreport.await_done
  have hz : still.may y z := by
    split at hf <;> cases hf <;> exact ⟨rfl, rfl, rfl⟩
  have hb : still.may a₃ b := by
    cases up <;> exact h₃.done_inv.2.2
  have hstarts : still.may x { x with started := true } := ⟨rfl, rfl, rfl⟩
  have hend : still.may a₁ b := still.trans hx (still.trans (still.trans hstarts ha₂)
    (still.trans hy (still.trans hz (still.trans ha₃ hb))))
  refine ⟨profile, List.mem_append_left _ hseen, hend.1.trans hlogin, hend.2.2.trans hprofile,
    fun users hs => hend.2.1.trans (hpeers users hs)⟩

/-- What a session holds when it becomes ready, with nobody else at work: the stored logout tokens behind
those that were held, and the stored access hashes as far as they were missing after the server had
answered who is signed in. -/
theorem BecomesReady.restores {m : Metadata} {t : List Event} {l : Program LinkExit}
    {flow : LoginFlow} {users : Table Int64 Int64} (h : BecomesReady still still a t l b)
    (hshows : Shows a.profile m t) (hlogin : a.login = .free flow)
    (hstored : storedHashes m = .ok users) :
    ∃ answer, .answered (.call (.getUsers [.self])) answer ∈ t ∧
      b.login = .free (flow.restoreTokens (restorable m)) ∧
      b.peers = ((Pipeline.learn (.getUsers [.self]) answer a).peers).restoreUsers users.toList ∧
      b.profile = a.profile := by
  obtain ⟨hspares, -, claim, u, v, a₁, hsub, hclaimed, hreported⟩ :=
    h.parts (fun _ _ h => h) fun _ _ h => h
  have hconnected : claim ≠ .unconnected := by
    rintro rfl
    cases hreported.done_inv.2.1
  obtain ⟨profile, answer, x, y, hseen, hanswer, hx, hy, hcases⟩ :=
    claiming_done (K := still) (fun _ _ => ⟨rfl, rfl, rfl⟩) (fun _ _ h => h.2.2) hclaimed hconnected
  have hread {profile : Profile} (h : .answered (.profile a.profile) profile ∈ u ++ v) :
      SameBackup profile.metadata m := hshows.seen hspares (hsub.subset h)
  rw [(hread (List.mem_append_left v hseen)).restorable] at hcases
  have hlogin₁ : y.login = .free flow := by
    rw [hy.1, Pipeline.learn_login, hx.1, hlogin]
  have hpeers₁ : y.peers = (Pipeline.learn (.getUsers [.self]) answer a).peers :=
    hy.2.1.trans (Pipeline.learn_peers_congr _ _ hx.2.1)
  have hprofile₁ : y.profile = a.profile := by
    rw [hy.2.2, Pipeline.learn_profile, hx.2.2]
  -- the tokens are put back, if any were stored
  obtain ⟨z, hlogin₂, hpeers₂, hprofile₂, hannounced⟩ : ∃ z : Account,
      z.login = .free (flow.restoreTokens (restorable m)) ∧ z.peers = y.peers ∧
        z.profile = y.profile ∧ Run still announce z v (.done (.ok ())) b := by
    obtain ⟨hnone, rfl, ha₁⟩ | ⟨hsome, flow', hflow, rfl, ha₁⟩ := hcases
    · rw [hnone, LoginFlow.restoreTokens_nil]
      exact ⟨a₁, ha₁.1.trans hlogin₁, ha₁.2.1, ha₁.2.2, hreported⟩
    · rw [hlogin₁] at hflow
      cases hflow
      obtain ⟨_, t₁, t₂, a₂, rfl, hupdate, h₂⟩ := Run.bind_done hreported
      obtain ⟨rfl, z, hz, ha₂⟩ := hupdate.update_done
      exact ⟨a₂, ha₂.1, ha₂.2.1.trans (hz.2.1.trans ha₁.2.1),
        ha₂.2.2.trans (hz.2.2.trans ha₁.2.2), h₂⟩
  obtain ⟨profile', hseen', hlogin₃, hprofile₃, hpeers₃⟩ := announce_done hannounced
  rw [hprofile₂, hprofile₁] at hseen'
  have hstored' : storedHashes profile'.metadata = .ok users :=
    (hread (List.mem_append_right u hseen')).storedHashes.trans hstored
  refine ⟨answer, hsub.subset (List.mem_append_left v hanswer), hlogin₃.trans hlogin₂, ?_, ?_⟩
  · rw [hpeers₃ users hstored', hpeers₂, hpeers₁]
  · rw [hprofile₃, hprofile₂, hprofile₁]

end Telebridge.Session
