import Telebridge.Outbound.Broadcast
import Telebridge.Proofs.Outbound.Resolve
set_option autoImplicit false

/-! # Broadcasts account for every peer

A broadcast leaves every peer of its request to one `Fate`: it is not resolved, or resolved before and
left out, or a message is sent to it. `Accounts` says which, from what resolving gave, and `Sends` that
the messages go out one after the other, each by a single repeated call. The report is read off the
fates (`reportOf`), although the failures of the two phases are collected in another order. -/

namespace Telebridge.Broadcast

open Program Pipeline Envelope Resolve

variable {R : Others} {policy : RetryPolicy} {text : String}

/-- What resolving a peer gives. -/
abbrev Resolved := Except ResolveError InputPeer

/-! ## What becomes of the peers -/

/-- What becomes of a peer: nothing is sent to it, or a message, with its outcome. -/
inductive Fate where
  | unresolved (e : ResolveError)
  | messaged (peer : InputPeer) (outcome : Except CallError Updates)

namespace Fate

/-- What is reported; nothing if the message was sent. -/
def reason? : Fate → Option FailureReason
  | .unresolved e => some e.reason
  | .messaged _ (.error e) => some e.reason
  | .messaged _ (.ok _) => none

/-- The message, if there is one: its addressee and its outcome. -/
def message? : Fate → Option (InputPeer × Except CallError Updates)
  | .unresolved _ => none
  | .messaged peer outcome => some (peer, outcome)

/-- The fate of a peer that is resolved to `r` after `earlier`. -/
inductive Follows (earlier : List Resolved) (peer : String) : Resolved → Fate → Prop
  | unresolved {e : ResolveError} : Follows earlier peer (.error e) (.unresolved e)
  | duplicate {input : InputPeer} (h : .ok input ∈ earlier) :
      Follows earlier peer (.ok input) (.unresolved (.duplicate peer))
  | messaged {input : InputPeer} {outcome : Except CallError Updates} (h : .ok input ∉ earlier) :
      Follows earlier peer (.ok input) (.messaged input outcome)

end Fate

/-- Every peer, with what resolving it gave, has the fate that follows. -/
inductive Accounts : List Resolved → List String → List Resolved → List Fate → Prop
  | nil {earlier : List Resolved} : Accounts earlier [] [] []
  | cons {earlier : List Resolved} {peer : String} {r : Resolved} {fate : Fate}
      {peers : List String} {rs : List Resolved} {fates : List Fate}
      (h : Fate.Follows earlier peer r fate) (hrest : Accounts (earlier ++ [r]) peers rs fates) :
      Accounts earlier (peer :: peers) (r :: rs) (fate :: fates)

/-- The report on some fates: an entry for each peer that did not get the message, in order. -/
def reportOf (peers : List String) (fates : List Fate) : BroadcastResponse :=
  { failures := (peers.zip fates).filterMap fun (peer, fate) => fate.reason?.map (⟨peer, ·⟩) }

/-- Peers are resolved one after the other. -/
inductive Resolves (R : Others) :
    List String → Account → List Event → List Resolved → Account → Prop
  | nil {a b : Account} (h : R.may a b) : Resolves R [] a [] [] b
  | cons {peer : String} {peers : List String} {a a₁ b : Account} {t u : List Event}
      {r : Resolved} {rs : List Resolved} (h : Run R (Resolve.peer peer) a t (.done r) a₁)
      (hrest : Resolves R peers a₁ u rs b) : Resolves R (peer :: peers) a (t ++ u) (r :: rs) b

/-- Messages are sent one after the other: an id is drawn, and the message with this id is called as
long as the policy says so. -/
inductive Sends (policy : RetryPolicy) (text : String) :
    List (InputPeer × Except CallError Updates) → List Event → Prop
  | nil : Sends policy text [] []
  | cons {peer : InputPeer} {id : Int64} {outcome : Except CallError Updates}
      {rest : List (InputPeer × Except CallError Updates)} {t u : List Event}
      (h : Persists policy (.sendMessage { peer, message := text, randomId := id }) 1 (calls t)
        outcome)
      (hrest : Sends policy text rest u) :
      Sends policy text ((peer, outcome) :: rest) (.answered .randomId id :: (t ++ u))

/-! ## The failures of both phases -/

/-- What is reported of messages that were sent to targets. -/
def undelivered : List Target → List (Except CallError Updates) → List Failure
  | target :: targets, .error e :: outcomes =>
    ⟨target.index, e.reason⟩ :: undelivered targets outcomes
  | _ :: targets, .ok _ :: outcomes => undelivered targets outcomes
  | _, _ => []

/-- What is reported of fates, the first of them at place `index`. -/
def reported (index : Nat) : List Fate → List Failure
  | [] => []
  | fate :: fates =>
    match fate.reason? with
    | some reason => ⟨index, reason⟩ :: reported (index + 1) fates
    | none => reported (index + 1) fates

theorem le_index_of_reported {index : Nat} {fates : List Fate} {f : Failure}
    (h : f ∈ reported index fates) : index ≤ f.index := by
  induction fates generalizing index with
  | nil => cases h
  | cons fate fates ih =>
    unfold reported at h
    split at h
    · rcases List.mem_cons.1 h with rfl | h
      · exact Nat.le_refl _
      · exact Nat.le_of_succ_le (ih h)
    · exact Nat.le_of_succ_le (ih h)

theorem reported_sorted (index : Nat) (fates : List Fate) :
    (reported index fates).Pairwise fun f g => f.index < g.index := by
  induction fates generalizing index with
  | nil => exact .nil
  | cons fate fates ih =>
    unfold reported
    split
    · exact List.pairwise_cons.2 ⟨fun f hf => le_index_of_reported hf, ih _⟩
    · exact ih _

/-- No place is reported twice. -/
theorem eq_of_reported {index : Nat} {fates : List Fate} {f g : Failure}
    (hf : f ∈ reported index fates) (hg : g ∈ reported index fates) (h : f.index = g.index) :
    f = g := by
  have hlt := List.pairwise_iff_getElem.1 (reported_sorted index fates)
  obtain ⟨i, hi, rfl⟩ := List.getElem_of_mem hf
  obtain ⟨j, hj, rfl⟩ := List.getElem_of_mem hg
  rcases Nat.lt_trichotomy i j with hij | rfl | hij
  · exact absurd h (Nat.ne_of_lt (hlt i j hi hj hij))
  · rfl
  · exact absurd h.symm (Nat.ne_of_lt (hlt j i hj hi hij))

/-- Failures in any order are sorted into that of the request. -/
theorem mergeSort_eq_reported {fs : List Failure} {index : Nat} {fates : List Fate}
    (h : fs.Perm (reported index fates)) :
    (fs.mergeSort fun f g => f.index ≤ g.index) = reported index fates := by
  have hperm : (fs.mergeSort fun f g => f.index ≤ g.index).Perm (reported index fates) :=
    (List.mergeSort_perm fs _).trans h
  have hsorted : (fs.mergeSort fun f g => f.index ≤ g.index).Pairwise
      fun f g => f.index ≤ g.index := by
    refine (List.pairwise_mergeSort ?_ ?_ fs).imp of_decide_eq_true
    · intro f g k hfg hgk
      exact decide_eq_true (Nat.le_trans (of_decide_eq_true hfg) (of_decide_eq_true hgk))
    · intro f g
      simpa using Nat.le_total f.index g.index
  refine hperm.eq_of_pairwise (fun f g hf hg hfg hgf => ?_) hsorted
    ((reported_sorted index fates).imp Nat.le_of_lt)
  exact eq_of_reported (hperm.mem_iff.1 hf) hg (Nat.le_antisymm hfg hgf)

/-- What is reported of fates, with the peers at their places. -/
theorem map_reported (given : List String) {peers : List String} {fates : List Fate}
    (h : fates.length = peers.length) :
    (reported given.length fates).map
        (fun f => (⟨(given ++ peers)[f.index]?.getD "", f.reason⟩ : BroadcastFailure)) =
      (reportOf peers fates).failures := by
  induction fates generalizing given peers with
  | nil => cases peers <;> simp [reported, reportOf]
  | cons fate fates ih =>
    cases peers with
    | nil => cases h
    | cons peer peers =>
      have hrest := ih (given ++ [peer]) (Nat.succ.inj h)
      rw [List.length_append, List.length_singleton, List.append_assoc, List.singleton_append]
        at hrest
      unfold reported
      cases hr : fate.reason? with
      | none => simpa [reportOf, hr] using hrest
      | some reason => simpa [reportOf, hr] using hrest

/-- The report on the failures of both phases is that on the fates. -/
theorem report_eq {peers : List String} {fs : List Failure} {fates : List Fate}
    (hlength : fates.length = peers.length) (h : fs.Perm (reported 0 fates)) :
    report peers fs = reportOf peers fates := by
  rw [report, mergeSort_eq_reported h]
  exact congrArg BroadcastResponse.mk (map_reported [] hlength)

theorem Accounts.length_eq {earlier rs : List Resolved} {peers : List String} {fates : List Fate}
    (h : Accounts earlier peers rs fates) : fates.length = peers.length := by
  induction h with
  | nil => rfl
  | cons _ _ ih => rw [List.length_cons, List.length_cons, ih]

/-! ## The first phase -/

/-- The failures and the targets that come of resolving some peers: whatever the messages to these
targets come to, the peers have fates that follow, and reported of them are these failures and the
messages that failed. -/
def Sorts (index : Nat) (earlier : List Resolved) (peers : List String) (rs : List Resolved)
    (fs : List Failure) (ts : List Target) : Prop :=
  ∀ outcomes : List (Except CallError Updates), outcomes.length = ts.length →
    ∃ fates, Accounts earlier peers rs fates ∧
      fates.filterMap Fate.message? = (ts.map Target.peer).zip outcomes ∧
      (fs ++ undelivered ts outcomes).Perm (reported index fates)

theorem Sorts.nil (index : Nat) (earlier : List Resolved) : Sorts index earlier [] [] [] [] := by
  intro outcomes hlength
  obtain rfl := List.length_eq_zero_iff.1 hlength
  exact ⟨[], .nil, rfl, .refl _⟩

section

variable {index : Nat} {earlier rs : List Resolved} {peer : String} {peers : List String}
  {fs : List Failure} {ts : List Target}

/-- A peer that nothing is sent to is reported first. -/
theorem Sorts.failed {found : Resolved} {e : ResolveError}
    (hfate : Fate.Follows earlier peer found (.unresolved e))
    (h : Sorts (index + 1) (earlier ++ [found]) peers rs fs ts) :
    Sorts index earlier (peer :: peers) (found :: rs) (⟨index, e.reason⟩ :: fs) ts := by
  intro outcomes hlength
  obtain ⟨fates, haccounts, hmessages, hperm⟩ := h outcomes hlength
  exact ⟨.unresolved e :: fates, .cons hfate haccounts, hmessages, hperm.cons _⟩

/-- A new addressee is the first target. -/
theorem Sorts.target {input : InputPeer} (hnew : .ok input ∉ earlier)
    (h : Sorts (index + 1) (earlier ++ [.ok input]) peers rs fs ts) :
    Sorts index earlier (peer :: peers) (.ok input :: rs) fs (⟨index, input⟩ :: ts) := by
  intro outcomes hlength
  cases outcomes with
  | nil => cases hlength
  | cons outcome outcomes =>
    obtain ⟨fates, haccounts, hmessages, hperm⟩ := h outcomes (Nat.succ.inj hlength)
    refine ⟨.messaged input outcome :: fates, .cons (.messaged hnew) haccounts, ?_, ?_⟩
    · exact congrArg ((input, outcome) :: ·) hmessages
    · cases outcome with
      | ok updates => exact hperm
      | error e => exact List.perm_middle.trans (hperm.cons _)

end

/-- What a finished first phase has added to the failures and the targets. -/
theorem resolveAll_done {r r' : Resolution} {index : Nat} {earlier : List Resolved}
    {peers : List String} {t : List Event} {a b : Account}
    (h : Run R (resolveAll r index peers) a t (.done r') b)
    (hseen : ∀ input, .ok input ∈ earlier ↔ ∃ target ∈ r.targets, target.peer = input) :
    ∃ rs fs ts, Resolves R peers a t rs b ∧ r' = ⟨r.failures ++ fs, r.targets ++ ts⟩ ∧
      Sorts index earlier peers rs fs ts := by
  induction peers generalizing r index earlier t a with
  | nil =>
    obtain ⟨rfl, hr, hb⟩ := h.done_inv
    cases hr
    exact ⟨[], [], [], .nil hb, by simp, .nil index earlier⟩
  | cons peer peers ih =>
    obtain ⟨found, t₁, t₂, a₁, rfl, hpeer, hrest⟩ := h.bind_done
    cases found with
    | error e =>
      have hseen' (input : InputPeer) : .ok input ∈ earlier ++ [.error e] ↔
          ∃ target ∈ r.targets, target.peer = input := by simpa using hseen input
      obtain ⟨rs, fs, ts, hresolves, rfl, hsorts⟩ := ih hrest hseen'
      exact ⟨_, _, ts, .cons hpeer hresolves, by simp, hsorts.failed .unresolved⟩
    | ok input =>
      simp only at hrest
      split at hrest
      · next hany =>
        have hmem : ∃ target ∈ r.targets, target.peer = input := by simpa using hany
        have hseen' (input' : InputPeer) : .ok input' ∈ earlier ++ [.ok input] ↔
            ∃ target ∈ r.targets, target.peer = input' := by
          rw [List.mem_append, hseen input']
          refine or_iff_left_of_imp fun h => ?_
          cases List.mem_singleton.1 h
          exact hmem
        obtain ⟨rs, fs, ts, hresolves, rfl, hsorts⟩ := ih hrest hseen'
        exact ⟨_, _, ts, .cons hpeer hresolves, by simp,
          hsorts.failed (.duplicate ((hseen input).2 hmem))⟩
      · next hany =>
        have hnew : .ok input ∉ earlier := by
          rw [hseen input]
          simpa using hany
        have hseen' (input' : InputPeer) : .ok input' ∈ earlier ++ [.ok input] ↔
            ∃ target ∈ r.targets ++ [⟨index, input⟩], target.peer = input' := by
          simp [hseen input', or_and_right, exists_or, eq_comm]
        obtain ⟨rs, fs, ts, hresolves, rfl, hsorts⟩ := ih hrest hseen'
        exact ⟨_, fs, _, .cons hpeer hresolves, by simp, hsorts.target hnew⟩

theorem conforms_resolveAll (hR : ∀ a b, R.may a b → b.config = a.config) (r : Resolution)
    (index : Nat) (peers : List String) :
    (resolveAll r index peers).Conforms R .sameConfig (fun _ => True) Asking := by
  induction peers generalizing r index with
  | nil => exact conforms_done r
  | cons peer peers ih =>
    refine (conforms_peer hR peer).bind fun found => ?_
    cases found with
    | error e => exact ih _ _
    | ok input =>
      simp only
      split
      · exact ih _ _
      · exact ih _ _

theorem resolveAll_ends {bound : Nat} {t : List Event} {a : Account} (r : Resolution) (index : Nat)
    (peers : List String) :
    Returns R (relenting policy bound) (fun _ _ _ => True) (resolveAll r index peers) t a := by
  induction peers generalizing r index t a with
  | nil => exact .done fun _ _ => trivial
  | cons peer peers ih =>
    refine (peer_ends peer).bind fun found _ _ _ => ?_
    cases found with
    | error e => exact ih _ _
    | ok input =>
      simp only
      split
      · exact ih _ _
      · exact ih _ _

/-! ## The second phase -/

/-- What a finished second phase has sent, and the failures that it gives. -/
theorem sendAll_done {targets : List Target} {fs : List Failure} {t : List Event} {a b : Account}
    (hR : ∀ a b, R.may a b → b.config = a.config) (hpolicy : a.config.retryPolicy = policy)
    (h : Run R (sendAll text targets) a t (.done fs) b) :
    ∃ outcomes : List (Except CallError Updates), outcomes.length = targets.length ∧
      Sends policy text ((targets.map Target.peer).zip outcomes) t ∧
      fs = undelivered targets outcomes := by
  induction targets generalizing fs t a b with
  | nil =>
    obtain ⟨rfl, hfs, -⟩ := h.done_inv
    cases hfs
    exact ⟨[], rfl, .nil, rfl⟩
  | cons target targets ih =>
    obtain ⟨id, t₁, t₂, a₁, rfl, hid, hcall⟩ := h.bind_done
    obtain ⟨rfl, ha₁⟩ := hid.external_done
    obtain ⟨outcome, t₃, t₄, a₂, rfl, hcall, hrest⟩ := hcall.bind_done
    have hconfig : a₂.config = a₁.config :=
      (hcall.conforms hR (conforms_callPersistently hR) fun _ _ => trivial).1
    have hpolicy₂ : a₂.config.retryPolicy = policy := by rw [hconfig, hR _ _ ha₁, hpolicy]
    have hpersists : Persists policy
        (.sendMessage { peer := target.peer, message := text, randomId := id }) 1 (calls t₃)
        outcome := by
      obtain ⟨used, t₅, t₆, a₃, rfl, hread, hcall⟩ := hcall.bind_done
      obtain ⟨rfl, a₄, ha₄, rfl, -⟩ := hread.read_done
      have hused : a₄.config.retryPolicy = policy := by rw [hR _ _ ha₄, hR _ _ ha₁, hpolicy]
      exact hused ▸ persists_of_run hcall
    have hcons {rest : List (InputPeer × Except CallError Updates)} {u : List Event}
        (hsends : Sends policy text rest u) : Sends policy text ((target.peer, outcome) :: rest)
          (.answered .randomId id :: (t₃ ++ u)) := .cons hpersists hsends
    cases outcome with
    | ok updates =>
      obtain ⟨outcomes, hlength, hsends, rfl⟩ := ih hpolicy₂ hrest
      exact ⟨.ok updates :: outcomes, congrArg Nat.succ hlength, hcons hsends, rfl⟩
    | error e =>
      obtain ⟨fs', t₇, t₈, a₅, rfl, hothers, hlast⟩ := hrest.bind_done
      obtain ⟨rfl, hfs, -⟩ := hlast.done_inv
      cases hfs
      obtain ⟨outcomes, hlength, hsends, rfl⟩ := ih hpolicy₂ hothers
      rw [List.append_nil]
      exact ⟨.error e :: outcomes, congrArg Nat.succ hlength, hcons hsends, rfl⟩

theorem sendAll_ends {bound : Nat} {targets : List Target} {t : List Event} {a : Account}
    (hR : ∀ a b, R.may a b → b.config = a.config) (hpolicy : a.config.retryPolicy = policy) :
    Returns R (relenting policy bound) (fun _ _ _ => True) (sendAll text targets) t a := by
  induction targets generalizing t a with
  | nil => exact .done fun _ _ => trivial
  | cons target targets ih =>
    refine Returns.external ⟨0, trivial⟩ fun id a₁ ha₁ _ => ?_
    have hpolicy₁ : a₁.config.retryPolicy = policy := by rw [hR _ _ ha₁, hpolicy]
    refine (callPersistently_ends (relents_relenting _ _) hR hpolicy₁).bind fun outcome t₂ a₂ hconfig => ?_
    have hrest {t : List Event} : Returns R (relenting policy bound) (fun _ _ _ => True)
        (sendAll text targets) t a₂ := ih (by rw [hconfig, hpolicy₁])
    cases outcome with
    | ok updates => exact hrest
    | error e => exact hrest.bind fun _ _ _ _ => .done fun _ _ => trivial

/-! ## The whole broadcast -/

/-- A broadcast comes to its end. -/
theorem run_ends (request : BroadcastRequest) {bound : Nat} {t : List Event} {a : Account}
    (hR : ∀ a b, R.may a b → b.config = a.config) (hpolicy : a.config.retryPolicy = policy) :
    Returns R (relenting policy bound) (fun _ _ _ => True) (run request) t a := by
  refine Returns.read fun a₁ ha₁ => ?_
  split
  · have hfirst : Returns R (relenting policy bound) (fun _ _ b => True ∧ b.config = a.config)
        (resolveAll {} 0 request.peers) t a₁ :=
      (resolveAll_ends {} 0 request.peers).keeps hR (conforms_resolveAll hR {} 0 request.peers)
        (hR _ _ ha₁)
    refine hfirst.bind fun r t₂ a₂ ⟨_, hconfig⟩ => ?_
    exact (sendAll_ends hR (hconfig ▸ hpolicy)).bind fun _ _ _ _ => .done fun _ _ => trivial
  · exact .done fun _ _ => trivial

/-- A broadcast always comes to its end, and accounts for every peer of its request. First every peer is
resolved, and nothing but queries is asked of the server. Then a message is sent to every peer that was
resolved and is no duplicate, in the order of the request, each by a single call that is repeated as the
policy says. The report has an entry for every peer that was not resolved, was a duplicate or did not
get its message, in the order of the request and under the name given there. An account that is signed
out does nothing, and the request fails. -/
theorem run_accounts {R : Others} (request : BroadcastRequest) (a : Account)
    (hR : ∀ a b, R.may a b → b.config = a.config) :
    (∀ bound, Returns R (relenting a.config.retryPolicy bound) (fun _ _ _ => True) (run request)
      [] a) ∧
    ∀ t r b, Run R (run request) a t (.done r) b → ∃ a₁, R.may a a₁ ∧
      if a₁.signal.isAuthorized then
        ∃ t₁ t₂ rs a₂ fates, t = t₁ ++ t₂ ∧ Resolves R request.peers a₁ t₁ rs a₂ ∧
          (∀ c ∈ calls t₁, IsQuery c.1) ∧ Accounts [] request.peers rs fates ∧
          Sends a.config.retryPolicy request.text (fates.filterMap Fate.message?) t₂ ∧
          r = .ok (reportOf request.peers fates)
      else t = [] ∧ r = .error (.badGateway "chat.broadcast.telegram.unauthorized"
        "telegram: account is not authorized") := by
  refine ⟨fun bound => run_ends request hR rfl, fun t r b h => ?_⟩
  obtain ⟨authorized, t₀, t', a₀, rfl, hread, h⟩ := h.bind_done
  obtain ⟨rfl, a₁, ha₁, rfl, ha₀⟩ := hread.read_done
  refine ⟨a₁, ha₁, ?_⟩
  split at h
  · next hauthorized =>
    rw [if_pos hauthorized]
    obtain ⟨r', t₁, t₂, a₂, rfl, hfirst, h⟩ := h.bind_done
    obtain ⟨fs', t₃, t₄, a₃, rfl, hsecond, h⟩ := h.bind_done
    obtain ⟨rfl, hr, -⟩ := h.done_inv
    cases hr
    obtain ⟨hconfig, hasking, -⟩ :=
      hfirst.conforms hR (conforms_resolveAll hR {} 0 request.peers) fun _ _ => trivial
    have hnone (input : InputPeer) : .ok input ∈ ([] : List Resolved) ↔
        ∃ target ∈ ({} : Resolution).targets, target.peer = input := by simp
    obtain ⟨rs, fs, ts, hresolves, rfl, hsorts⟩ := resolveAll_done (hfirst.after_others ha₀) hnone
    have hpolicy : a₂.config.retryPolicy = a.config.retryPolicy := by
      rw [hconfig, hR _ _ ha₀, hR _ _ ha₁]
    obtain ⟨outcomes, hlength, hsends, rfl⟩ := sendAll_done hR hpolicy hsecond
    obtain ⟨fates, haccounts, hmessages, hperm⟩ := hsorts outcomes hlength
    rw [List.nil_append, List.append_nil]
    refine ⟨t₁, t₃, rs, a₂, fates, rfl, hresolves, ?_, haccounts, ?_, ?_⟩
    · intro c hc
      obtain ⟨e, he, hec⟩ := List.mem_filterMap.1 hc
      exact hasking e he c hec
    · rw [hmessages]
      exact hsends
    · exact congrArg Except.ok (report_eq haccounts.length_eq hperm)
  · next hauthorized =>
    rw [if_neg hauthorized]
    obtain ⟨rfl, hr, -⟩ := h.done_inv
    cases hr
    exact ⟨rfl, rfl⟩

/-- A blank peer and a name: the blank one is reported in any case, the name if it is not found or does
not get the message. -/
theorem run_accounts_blank_and_name :
    let a : Account := { config := {}, profile := 0, signal := { user := some { id := 1 } } }
    let request : BroadcastRequest := { peers := ["", "@bob"], text := "hello" }
    (∀ a b, Others.nobody.may a b → b.config = a.config) ∧
      ∃ t others b, others.length ≤ 1 ∧ Run Others.nobody (run request) a t
        (.done (.ok { failures := ⟨"", ⟨404, "peer not found"⟩⟩ :: others })) b := by
  intro a request
  have hR : ∀ a b, Others.nobody.may a b → b.config = a.config := fun _ _ h => congrArg _ h
  have hauthorized : a.signal.isAuthorized = true := rfl
  obtain ⟨hends, hruns⟩ := run_accounts request a hR
  obtain ⟨t, r, b, hrun, -⟩ := (hends 0).exists_run
  obtain ⟨a₁, rfl, h⟩ := hruns t r b hrun
  rw [if_pos hauthorized] at h
  obtain ⟨t₁, t₂, rs, a₂, fates, rfl, hresolves, -, haccounts, -, rfl⟩ := h
  have hblank : Resolve.peer "" = .done (.error (.notFound "")) := by
    have hempty : (Text.trim "").isEmpty = true := by decide
    simp only [Resolve.peer, hempty, if_true]
    rfl
  cases hresolves with
  | cons hpeer _ =>
    rw [hblank] at hpeer
    cases hpeer.done_inv.2.1
    cases haccounts with
    | cons hfate _ =>
      cases hfate
      refine ⟨hR, _, _, b, ?_, hrun⟩
      exact Nat.le_trans (List.length_filterMap_le ..)
        (List.length_zip ▸ Nat.min_le_left _ _)

end Telebridge.Broadcast
