import Telebridge.Proofs.Account.PhoneIndex
import Telebridge.Proofs.Outbound.Duplicates
set_option autoImplicit false

/-! # Looking up phone numbers

A phone number is looked up in the index first, and the server is asked about the user there. Only if the
index has no user, or the server no longer knows exactly one, is the number resolved anew. `Lookup` says
which calls that makes and what comes of them; every finished run keeps to it (`lookup_of_run`). A user that
was resolved with an access hash is asked for directly the next time (`phone_asks_iff`). -/

namespace Telebridge.Resolve

open Program Pipeline

variable {R : Others} {number digits : String} {id hash : Int64} {users : List UserEntry} {u : User}
  {t : List Event} {a b : Account}

/-! ## The only user with an id -/

/-- The user is listed once, and no other user with the id is; empty entries do not count. -/
def OnlyUser (users : List UserEntry) (id : Int64) (u : User) : Prop :=
  u.id = id ∧ ∃ before after, users = before ++ .user u :: after ∧
    ∀ v, .user v ∈ before ∨ .user v ∈ after → v.id ≠ id

theorem OnlyUser.mem (h : OnlyUser users id u) : .user u ∈ users := by
  obtain ⟨-, before, after, rfl, -⟩ := h
  simp

theorem OnlyUser.eq {v : User} (h : OnlyUser users id u) (hv : .user v ∈ users) (hid : v.id = id) :
    v = u := by
  obtain ⟨-, before, after, rfl, hothers⟩ := h
  rcases List.mem_append.1 hv with hv | hv
  · exact absurd hid (hothers v (.inl hv))
  · rcases List.mem_cons.1 hv with hv | hv
    · exact UserEntry.user.inj hv
    · exact absurd hid (hothers v (.inr hv))

/-- The listed users with an id. -/
def withId (users : List UserEntry) (id : Int64) : List User :=
  (users.filterMap UserEntry.user?).filter fun u => u.id = id

theorem withId_eq_nil_iff : withId users id = [] ↔ ∀ v, .user v ∈ users → v.id ≠ id := by
  simp only [withId, List.filter_eq_nil_iff, List.mem_filterMap, decide_eq_true_eq]
  constructor
  · exact fun h v hv => h v ⟨_, hv, rfl⟩
  · rintro h v ⟨entry, hentry, hv⟩
    cases entry with
    | empty => cases hv
    | user w =>
      cases hv
      exact h v hentry

theorem withId_cons_of_ne {entry : UserEntry} (h : ∀ v, entry = .user v → v.id ≠ id) :
    withId (entry :: users) id = withId users id := by
  cases entry with
  | empty => rfl
  | user v => simp [withId, UserEntry.user?, h v rfl]

theorem withId_cons_of_eq {v : User} (h : v.id = id) :
    withId (.user v :: users) id = v :: withId users id := by
  simp [withId, UserEntry.user?, h]

theorem withId_eq_singleton_iff : withId users id = [u] ↔ OnlyUser users id u := by
  constructor
  · intro h
    induction users with
    | nil => cases h
    | cons entry rest ih =>
      by_cases hentry : ∃ v, entry = .user v ∧ v.id = id
      · obtain ⟨v, rfl, hv⟩ := hentry
        rw [withId_cons_of_eq hv] at h
        obtain ⟨rfl, hrest⟩ := List.cons.inj h
        exact ⟨hv, [], rest, rfl, fun w hw => withId_eq_nil_iff.1 hrest w (by simpa using hw)⟩
      · have hne : ∀ v, entry = .user v → v.id ≠ id := fun v hv hid => hentry ⟨v, hv, hid⟩
        rw [withId_cons_of_ne hne] at h
        obtain ⟨hid, before, after, rfl, hothers⟩ := ih h
        refine ⟨hid, entry :: before, after, rfl, fun v hv => ?_⟩
        rcases hv with hv | hv
        · rcases List.mem_cons.1 hv with hv | hv
          · exact hne v hv.symm
          · exact hothers v (.inl hv)
        · exact hothers v (.inr hv)
  · rintro ⟨hid, before, after, rfl, hothers⟩
    induction before with
    | nil =>
      rw [List.nil_append, withId_cons_of_eq hid,
        withId_eq_nil_iff.2 fun v hv => hothers v (.inr hv)]
    | cons entry before ih =>
      rw [List.cons_append, withId_cons_of_ne]
      · exact ih fun v hv => hothers v (hv.imp_left (List.mem_cons_of_mem _))
      · rintro v rfl
        exact hothers v (.inl List.mem_cons_self)

theorem singleUser?_eq_some_iff : singleUser? users id = some u ↔ OnlyUser users id u := by
  rw [← withId_eq_singleton_iff]
  unfold singleUser?
  split
  · next v hsingle =>
    have hwith : withId users id = [v] := hsingle
    rw [hwith, Option.some.injEq, List.cons.injEq, and_iff_left rfl]
  · next hother =>
    exact ⟨nofun, fun hsingle => (hother u hsingle).elim⟩

theorem singleUser?_eq_none_iff : singleUser? users id = none ↔ ∀ u, ¬ OnlyUser users id u := by
  rw [Option.eq_none_iff_forall_ne_some]
  exact forall_congr' fun u => not_congr singleUser?_eq_some_iff

/-! ## Both ways to ask -/

/-- The users that an answer describes when one is asked for. -/
def described (id hash : Int64) (answer : Except CallError Reply) :
    Except CallError (List UserEntry) :=
  outcome (.getUsers [.user id hash]) answer

/-- The peer that an answer has for a phone number. -/
def resolvedBy (digits : String) (answer : Except CallError Reply) : Except CallError ResolvedPeer :=
  outcome (.resolvePhone digits) answer

/-- The number was asked for once or twice, and a user that came of it is the only one with the id that
was resolved. Only what the others did has changed the account since. -/
structure Asked (R : Others) (digits : String) (cs : List Call) (r : Except ResolveError User)
    (b : Account) : Prop where
  ne_nil : cs ≠ []
  length_le : cs.length ≤ 2
  request_eq : ∀ c ∈ cs, c.1 = .resolvePhone digits
  ok : ∀ u, r = .ok u → ∃ reply x resolved id, (.resolvePhone digits, .ok reply) ∈ cs ∧
    resolvedBy digits (.ok reply) = .ok resolved ∧ resolved.peer = .user id ∧
    OnlyUser resolved.users id u ∧ R.may (learn (.resolvePhone digits) (.ok reply) x) b

/-- The calls that a phone number is looked up with in a directory, and what comes of them. -/
inductive Lookup (R : Others) (digits : String) (d : PeerDirectory) :
    List Call → Except ResolveError User → Account → Prop
  | noDigits {b : Account} (h : digits = "") : Lookup R digits d [] (.error (.notFound digits)) b
  | current {id hash : Int64} {answer : Except CallError Reply} {users : List UserEntry} {u : User}
      {b : Account} (hdigits : digits ≠ "") (hd : d.Indexes digits id hash)
      (hanswer : described id hash answer = .ok users) (hu : OnlyUser users id u) :
      Lookup R digits d [(.getUsers [.user id hash], answer)] (.ok u) b
  | refused {id hash : Int64} {answer : Except CallError Reply} {e : CallError} {b : Account}
      (hdigits : digits ≠ "") (hd : d.Indexes digits id hash)
      (hanswer : described id hash answer = .error e) :
      Lookup R digits d [(.getUsers [.user id hash], answer)] (.error (.call e)) b
  | unknown {cs : List Call} {r : Except ResolveError User} {b : Account} (hdigits : digits ≠ "")
      (hd : ∀ id hash, ¬ d.Indexes digits id hash) (hcs : Asked R digits cs r b) :
      Lookup R digits d cs r b
  | outdated {id hash : Int64} {answer : Except CallError Reply} {users : List UserEntry}
      {cs : List Call} {r : Except ResolveError User} {b : Account} (hdigits : digits ≠ "")
      (hd : d.Indexes digits id hash) (hanswer : described id hash answer = .ok users)
      (hu : ∀ u, ¬ OnlyUser users id u) (hcs : Asked R digits cs r b) :
      Lookup R digits d ((.getUsers [.user id hash], answer) :: cs) r b

/-- The index is read at some moment. The user there is asked for, and is the only one, or unknown. -/
theorem indexed_run {found : Except CallError (Option User)}
    (h : Run R (indexed digits) a t (.done found) b) :
    ∃ x, R.may a x ∧
      ((calls t = [] ∧ found = .ok none ∧ ∀ id hash, ¬ x.peers.Indexes digits id hash) ∨
      ∃ id hash answer, x.peers.Indexes digits id hash ∧
        calls t = [(.getUsers [.user id hash], answer)] ∧
        found = (described id hash answer).map fun users => singleUser? users id) := by
  obtain ⟨x, hx, h⟩ := Run.read_bind_iff.1 h
  refine ⟨x, hx, ?_⟩
  have hnone (hother : ∀ id hash, x.peers.findPhone? digits ≠ some (⟨.user, id⟩, hash))
      (h : Run R (.done (.ok none)) x t (.done found) b) :
      calls t = [] ∧ found = .ok none ∧ ∀ id hash, ¬ x.peers.Indexes digits id hash := by
    obtain ⟨rfl, rfl, -⟩ := Run.done_iff.1 h
    exact ⟨rfl, rfl, fun id hash hd => hother id hash (PeerDirectory.findPhone?_user_iff.2 hd)⟩
  rcases hfound : x.peers.findPhone? digits with _ | ⟨⟨kind, id⟩, hash⟩
  · simp only [hfound] at h
    exact .inl (hnone (by simp [hfound]) h)
  cases kind with
  | user =>
    simp only [hfound] at h
    obtain ⟨reply, t₁, t₂, a₁, rfl, hcall, hrest⟩ := h.bind_done
    obtain ⟨answer, y, hes, rfl, -, -⟩ := hcall.call_done
    have hanswer : calls t₂ = [] ∧ found = (described id hash answer).map fun users =>
        singleUser? users id := by
      revert hrest
      show Run R _ a₁ t₂ _ b → _
      unfold described
      cases outcome (.getUsers [.user id hash]) answer with
      | ok users =>
        intro hrest
        obtain ⟨rfl, rfl, -⟩ := Run.done_iff.1 hrest
        exact ⟨rfl, rfl⟩
      | error e =>
        intro hrest
        obtain ⟨rfl, rfl, -⟩ := Run.done_iff.1 hrest
        exact ⟨rfl, rfl⟩
    refine .inr ⟨id, hash, answer, PeerDirectory.findPhone?_user_iff.1 hfound, ?_, hanswer.2⟩
    rw [calls_append, hes.calls_eq, hanswer.1, List.append_nil]
  | chat | channel =>
    simp only [hfound] at h
    exact .inl (hnone (by simp [hfound]) h)

/-- Both times the number is the same, and a user that comes of it was resolved. -/
theorem remote_run {r : Except ResolveError User} (h : Run R (remote digits) a t (.done r) b) :
    Asked R digits (calls t) r b := by
  obtain ⟨found, t₁, t₂, a₁, rfl, hcalls, hrest⟩ := h.bind_done
  obtain ⟨outcome, hcourse, hdone⟩ := course_of_run hcalls
  obtain rfl := hdone found rfl
  have hlimit : (calls t₁).length + 1 ≤ 2 + 1 :=
    hcourse.length_calls_le (by decide) (by decide)
  have hrest : t₂ = [] ∧ ∀ u, r = .ok u → ∃ resolved id, found = .ok resolved ∧
      resolved.peer = .user id ∧ OnlyUser resolved.users id u ∧ R.may a₁ b := by
    cases found with
    | error e =>
      simp only at hrest
      split at hrest
      · obtain ⟨rfl, rfl, -⟩ := Run.done_iff.1 hrest
        exact ⟨rfl, fun u hu => by cases hu⟩
      · obtain ⟨rfl, rfl, -⟩ := Run.done_iff.1 hrest
        exact ⟨rfl, fun u hu => by cases hu⟩
    | ok resolved =>
      simp only at hrest
      split at hrest
      · next id hpeer =>
        split at hrest
        · next v hv =>
          obtain ⟨rfl, rfl, hb⟩ := Run.done_iff.1 hrest
          refine ⟨rfl, fun u hu => ?_⟩
          obtain rfl := Except.ok.inj hu
          exact ⟨resolved, id, rfl, hpeer, singleUser?_eq_some_iff.1 hv, hb⟩
        · obtain ⟨rfl, rfl, -⟩ := Run.done_iff.1 hrest
          exact ⟨rfl, fun u hu => by cases hu⟩
      · obtain ⟨rfl, rfl, -⟩ := Run.done_iff.1 hrest
        exact ⟨rfl, fun u hu => by cases hu⟩
      · obtain ⟨rfl, rfl, -⟩ := Run.done_iff.1 hrest
        exact ⟨rfl, fun u hu => by cases hu⟩
  obtain ⟨rfl, hok⟩ := hrest
  rw [List.append_nil]
  refine ⟨hcourse.persists.ne_nil, Nat.le_of_succ_le_succ hlimit, hcourse.request_eq, ?_⟩
  intro u hu
  obtain ⟨resolved, id, rfl, hpeer, honly, hb⟩ := hok u hu
  obtain ⟨reply, x, hmem, hreply, hx⟩ := learnt_of_run hcalls resolved rfl
  exact ⟨reply, x, resolved, id, hmem, hreply, hpeer, honly, R.trans hx hb⟩

/-- Every run that has ended was a look-up in the directory as it was at some moment. -/
theorem lookup_of_run {r : Except ResolveError User} (h : Run R (phone number) a t (.done r) b) :
    ∃ x, R.may a x ∧ Lookup R (Phone.digits number) x.peers (calls t) r b := by
  unfold phone at h
  dsimp only at h
  split at h
  · next hempty =>
    obtain ⟨rfl, rfl, -⟩ := Run.done_iff.1 h
    exact ⟨a, R.refl a, .noDigits (String.isEmpty_iff.1 hempty)⟩
  · next hempty =>
    have hdigits : Phone.digits number ≠ "" := by
      rwa [← String.isEmpty_iff.ne]
    obtain ⟨found, t₁, t₂, a₁, rfl, hindexed, hrest⟩ := h.bind_done
    rw [calls_append]
    obtain ⟨x, hx, ⟨hcalls, rfl, hnone⟩ | ⟨id, hash, answer, hd, hcalls, rfl⟩⟩ := indexed_run hindexed
    · refine ⟨x, hx, ?_⟩
      rw [hcalls, List.nil_append]
      exact .unknown hdigits hnone (remote_run hrest)
    · refine ⟨x, hx, ?_⟩
      rw [hcalls, List.singleton_append]
      cases hanswer : described id hash answer with
      | error e =>
        rw [hanswer] at hrest
        obtain ⟨rfl, rfl, -⟩ := Run.done_iff.1 hrest
        exact .refused hdigits hd hanswer
      | ok users =>
        rw [hanswer, Except.map] at hrest
        cases hsingle : singleUser? users id with
        | some u =>
          rw [hsingle] at hrest
          obtain ⟨rfl, rfl, -⟩ := Run.done_iff.1 hrest
          exact .current hdigits hd hanswer (singleUser?_eq_some_iff.1 hsingle)
        | none =>
          rw [hsingle] at hrest
          exact .outdated hdigits hd hanswer (singleUser?_eq_none_iff.1 hsingle) (remote_run hrest)

/-! ## The numbers that are asked for -/

/-- The phone number that a call asks for. -/
def number? : Call → Option String
  | (.resolvePhone number, _) => some number
  | _ => none

/-- The phone numbers that were asked for. -/
def numbers (t : List Event) : List String :=
  (calls t).filterMap number?

/-- The index has a user under the digits, and the server has answered that it does not know exactly one
with the id. -/
def Outdated (digits : String) (d : PeerDirectory) (cs : List Call) : Prop :=
  ∃ id hash answer users, d.Indexes digits id hash ∧ (.getUsers [.user id hash], answer) ∈ cs ∧
    described id hash answer = .ok users ∧ ∀ u, ¬ OnlyUser users id u

theorem filterMap_number? {cs : List Call} (h : ∀ c ∈ cs, c.1 = .resolvePhone digits) :
    cs.filterMap number? = List.replicate cs.length digits := by
  induction cs with
  | nil => rfl
  | cons c cs ih =>
    obtain ⟨request, answer⟩ := c
    obtain ⟨rfl, hcs⟩ := List.forall_mem_cons.1 h
    exact congrArg (List.cons digits) (ih hcs)

theorem Asked.numbers_ne_nil {cs : List Call} {r : Except ResolveError User}
    (h : Asked R digits cs r b) : cs.filterMap number? ≠ [] := by
  rw [filterMap_number? h.request_eq, ne_eq, List.replicate_eq_nil_iff, List.length_eq_zero_iff]
  exact h.ne_nil

namespace Lookup

variable {d : PeerDirectory} {cs : List Call} {r : Except ResolveError User}

theorem numbers_eq (h : Lookup R digits d cs r b) :
    ∃ n ≤ 2, cs.filterMap number? = List.replicate n digits := by
  cases h with
  | noDigits | current | refused => exact ⟨0, by decide, rfl⟩
  | unknown _ _ hcs => exact ⟨cs.length, hcs.length_le, filterMap_number? hcs.request_eq⟩
  | outdated _ _ _ _ hcs => exact ⟨_, hcs.length_le, filterMap_number? hcs.request_eq⟩

/-- The number is asked for only if it has digits, and the index has no user or an outdated one. -/
theorem asks_iff (h : Lookup R digits d cs r b) :
    cs.filterMap number? ≠ [] ↔
      digits ≠ "" ∧ ((∀ id hash, ¬ d.Indexes digits id hash) ∨ Outdated digits d cs) := by
  cases h with
  | noDigits h => exact ⟨fun hne => absurd rfl hne, fun hne => absurd h hne.1⟩
  | @current id hash answer users u _ _ hd hanswer hu =>
    refine ⟨fun hne => absurd rfl hne, ?_⟩
    rintro ⟨-, hnone | ⟨id', hash', answer', users', hd', hmem, hanswer', hother⟩⟩
    · exact absurd hd (hnone id hash)
    · cases List.mem_singleton.1 hmem
      cases hanswer.symm.trans hanswer'
      exact absurd hu (hother u)
  | @refused id hash answer e _ _ hd hanswer =>
    refine ⟨fun hne => absurd rfl hne, ?_⟩
    rintro ⟨-, hnone | ⟨id', hash', answer', users', hd', hmem, hanswer', -⟩⟩
    · exact absurd hd (hnone id hash)
    · cases List.mem_singleton.1 hmem
      cases hanswer.symm.trans hanswer'
  | unknown hdigits hnone hcs => exact ⟨fun _ => ⟨hdigits, .inl hnone⟩, fun _ => hcs.numbers_ne_nil⟩
  | @outdated id hash answer users cs _ _ hdigits hd hanswer hother hcs =>
    exact ⟨fun _ => ⟨hdigits, .inr ⟨id, hash, answer, users, hd, List.mem_cons_self, hanswer, hother⟩⟩,
      fun _ => hcs.numbers_ne_nil⟩

/-- If the user in the index is not described, that is the answer. -/
theorem error_eq (h : Lookup R digits d cs r b) {answer : Except CallError Reply} {e : CallError}
    (hmem : (.getUsers [.user id hash], answer) ∈ cs) (he : described id hash answer = .error e) :
    r = .error (.call e) := by
  cases h with
  | noDigits => cases hmem
  | current _ _ hanswer =>
    cases List.mem_singleton.1 hmem
    cases hanswer.symm.trans he
  | refused _ _ hanswer =>
    cases List.mem_singleton.1 hmem
    cases hanswer.symm.trans he
    rfl
  | unknown _ _ hcs => cases hcs.request_eq _ hmem
  | outdated _ _ hanswer _ hcs =>
    rcases List.mem_cons.1 hmem with hmem | hmem
    · cases hmem
      cases hanswer.symm.trans he
    · cases hcs.request_eq _ hmem

/-- A user that is found is the only one with the id, in the description of the one in the index or in
what the number was resolved to. -/
theorem found (h : Lookup R digits d cs (.ok u) b) :
    (∃ id hash answer users, d.Indexes digits id hash ∧ (.getUsers [.user id hash], answer) ∈ cs ∧
      described id hash answer = .ok users ∧ OnlyUser users id u) ∨
    ∃ answer resolved id, (.resolvePhone digits, answer) ∈ cs ∧
      resolvedBy digits answer = .ok resolved ∧ resolved.peer = .user id ∧
      OnlyUser resolved.users id u := by
  cases h with
  | current _ hd hanswer hu => exact .inl ⟨_, _, _, _, hd, List.mem_cons_self, hanswer, hu⟩
  | unknown _ _ hcs =>
    obtain ⟨reply, -, resolved, id, hmem, hreply, hpeer, hu, -⟩ := hcs.ok u rfl
    exact .inr ⟨.ok reply, resolved, id, hmem, hreply, hpeer, hu⟩
  | outdated _ _ _ _ hcs =>
    obtain ⟨reply, -, resolved, id, hmem, hreply, hpeer, hu, -⟩ := hcs.ok u rfl
    exact .inr ⟨.ok reply, resolved, id, List.mem_cons_of_mem _ hmem, hreply, hpeer, hu⟩

/-- A user that was resolved with an access hash is in the index from then on. -/
theorem indexed (h : Lookup R digits d cs (.ok u) b) (hself : Phone.digits digits = digits)
    (hasked : cs.filterMap number? ≠ []) (hhash : u.accessHash = some hash) :
    ∃ reply x, (.resolvePhone digits, .ok reply) ∈ cs ∧
      R.may (learn (.resolvePhone digits) (.ok reply) x) b ∧
      (learn (.resolvePhone digits) (.ok reply) x).peers.Indexes digits u.id hash := by
  obtain ⟨hdigits, -⟩ := h.asks_iff.1 hasked
  obtain ⟨cs', hsub, hcs⟩ : ∃ cs', cs' ⊆ cs ∧ Asked R digits cs' (.ok u) b := by
    cases h with
    | current => exact absurd rfl hasked
    | unknown _ _ hcs => exact ⟨cs, fun _ hc => hc, hcs⟩
    | outdated _ _ _ _ hcs => exact ⟨_, List.subset_cons_self _ _, hcs⟩
  obtain ⟨reply, x, resolved, id, hmem, hreply, hpeer, hu, hx⟩ := hcs.ok u rfl
  obtain rfl : reply = ⟨.resolvedPeer, resolved⟩ := eq_of_outcome_ok hreply
  obtain rfl := hu.1
  exact ⟨_, x, hsub hmem, hx, indexes_learn hself hdigits hpeer hu.mem rfl hhash
    (fun v hv hvid => hu.eq hv hvid) x⟩

/-- A user in the index is asked for first, and if that is the only one, there is nothing else to ask. -/
theorem first (h : Lookup R digits d cs r b) (hdigits : digits ≠ "") (hd : d.Indexes digits id hash) :
    ∃ answer rest, cs = (.getUsers [.user id hash], answer) :: rest ∧
      ∀ users v, described id hash answer = .ok users → OnlyUser users id v →
        rest = [] ∧ r = .ok v := by
  cases h with
  | noDigits h => exact absurd h hdigits
  | @current _ _ answer users u _ _ hd' hanswer hu =>
    obtain ⟨rfl, rfl⟩ := hd.unique hd'
    refine ⟨answer, [], rfl, fun users' v husers hv => ⟨rfl, ?_⟩⟩
    cases hanswer.symm.trans husers
    rw [hu.eq hv.mem hv.1]
  | @refused _ _ answer e _ _ hd' hanswer =>
    obtain ⟨rfl, rfl⟩ := hd.unique hd'
    refine ⟨answer, [], rfl, fun users' v husers => ?_⟩
    cases hanswer.symm.trans husers
  | unknown _ hnone => exact absurd hd (hnone id hash)
  | @outdated _ _ answer users rest _ _ _ hd' hanswer hother =>
    obtain ⟨rfl, rfl⟩ := hd.unique hd'
    refine ⟨answer, rest, rfl, fun users' v husers hv => ?_⟩
    cases hanswer.symm.trans husers
    exact absurd hv (hother v)

end Lookup

/-! ## All look-ups -/

theorem phone_ends_anyway : Returns R Environment.anything (fun _ _ _ => True) (phone number) t a := by
  have hrelenting : relenting (.attempts 2) 0 = Environment.anything := by
    funext t e
    refine propext ⟨fun _ => trivial, fun _ => ?_⟩
    unfold relenting
    split
    · exact fun _ _ => .inl (givesUp_attempts (by decide))
    · trivial
  exact hrelenting ▸ phone_ends number

/-- A look-up that is under way can be followed to its end. -/
theorem exists_finished {p : Program (Except ResolveError User)} (h : Run R (phone number) a t p b) :
    ∃ u r c, Run R (phone number) a (t ++ u) (.done r) c := by
  obtain ⟨u, r, c, hrest, -⟩ :=
    ((phone_ends_anyway (t := [])).after_run h (Environment.anything_allows _ _)).exists_run
  exact ⟨u, r, c, h.append hrest⟩

/-- A look-up comes to its end, whatever it meets, and never asks for another number or more than twice.
When it has ended, it has asked for the number exactly if that has a digit, and the index had no user with
a known access hash, or one who was described without being the only one with the id; an error of that
description is the answer. A user that is found is the only one with the id in the reply it came from. If
it came from the number and had an access hash, then until the index is purged or gets a new entry under
the digits, a look-up of the same digits first asks for this user, with the access hash that is known by
then, and does not ask for the number if it gets exactly one. -/
theorem phone_asks_iff (R : Others) (number : String) (a : Account) :
    Returns R Environment.anything (fun _ _ _ => True) (phone number) [] a ∧
    (∀ t p b, Run R (phone number) a t p b →
      ∃ n ≤ 2, numbers t = List.replicate n (Phone.digits number)) ∧
    (∀ t r b, Run R (phone number) a t (.done r) b → ∃ x, R.may a x ∧
      (numbers t ≠ [] ↔ (∃ c ∈ number.toList, c.isDigit) ∧
        ((∀ id hash, ¬ x.peers.Indexes (Phone.digits number) id hash) ∨
          Outdated (Phone.digits number) x.peers (calls t))) ∧
      (∀ id hash answer e, (.getUsers [.user id hash], answer) ∈ calls t →
        described id hash answer = .error e → r = .error (.call e)) ∧
      ∀ u, r = .ok u →
        (∃ id hash answer users, x.peers.Indexes (Phone.digits number) id hash ∧
          (.getUsers [.user id hash], answer) ∈ calls t ∧
          described id hash answer = .ok users ∧ OnlyUser users id u) ∨
        ∃ answer resolved id, (.resolvePhone (Phone.digits number), answer) ∈ calls t ∧
          resolvedBy (Phone.digits number) answer = .ok resolved ∧ resolved.peer = .user id ∧
          OnlyUser resolved.users id u) ∧
    ∀ t u hash b, Run R (phone number) a t (.done (.ok u)) b → numbers t ≠ [] →
      u.accessHash = some hash →
      ∃ reply x, (.resolvePhone (Phone.digits number), .ok reply) ∈ calls t ∧
        R.may (learn (.resolvePhone (Phone.digits number)) (.ok reply) x) b ∧
        ∀ (R' : Others) (number' : String) (c : Account),
          Phone.digits number' = Phone.digits number →
          (∀ a b, R'.may a b → a.peers.Undisturbed (Phone.digits number) b.peers) →
          PeerDirectory.Undisturbed (Phone.digits number)
            (learn (.resolvePhone (Phone.digits number)) (.ok reply) x).peers c.peers →
          ∀ t' r' c', Run R' (phone number') c t' (.done r') c' →
            ∃ y hash' answer rest, R'.may c y ∧ y.peers.find? ⟨.user, u.id⟩ = some hash' ∧
              calls t' = (.getUsers [.user u.id hash'], answer) :: rest ∧
              ∀ users v, described u.id hash' answer = .ok users → OnlyUser users u.id v →
                numbers t' = [] ∧ r' = .ok v := by
  refine ⟨phone_ends_anyway, ?_, ?_, ?_⟩
  · intro t p b hrun
    obtain ⟨u, r, c, hfinished⟩ := exists_finished hrun
    obtain ⟨x, -, hlookup⟩ := lookup_of_run hfinished
    obtain ⟨n, hn, heq⟩ := hlookup.numbers_eq
    rw [calls_append, List.filterMap_append] at heq
    obtain ⟨hlength, hsofar, -⟩ := List.append_eq_replicate_iff.1 heq
    exact ⟨_, Nat.le_trans (hlength ▸ Nat.le_add_right ..) hn, hsofar⟩
  · intro t r b hrun
    obtain ⟨x, hx, hlookup⟩ := lookup_of_run hrun
    refine ⟨x, hx, ?_, fun id hash answer e => hlookup.error_eq, ?_⟩
    · rw [← Phone.digits_ne_empty_iff]
      exact hlookup.asks_iff
    · rintro u rfl
      exact hlookup.found
  · intro t u hash b hrun hasked hhash
    obtain ⟨x, -, hlookup⟩ := lookup_of_run hrun
    obtain ⟨hdigits, -⟩ := hlookup.asks_iff.1 hasked
    obtain ⟨reply, z, hmem, hz, hd⟩ := hlookup.indexed (Phone.digits_digits number) hasked hhash
    refine ⟨reply, z, hmem, hz, fun R' number' c hsame hR' hc t' r' c' hrun' => ?_⟩
    obtain ⟨y, hy, hlookup'⟩ := lookup_of_run hrun'
    rw [hsame] at hlookup'
    obtain ⟨hash', hd'⟩ := hd.undisturbed (hc.trans (hR' c y hy))
    obtain ⟨answer, rest, hcalls, honly⟩ := hlookup'.first hdigits hd'
    refine ⟨y, hash', answer, rest, hy, hd'.2, hcalls, fun users v husers hv => ?_⟩
    obtain ⟨rfl, hr⟩ := honly users v husers hv
    exact ⟨by rw [numbers, hcalls]; rfl, hr⟩

/-- Somebody with an access hash. -/
def ann : User :=
  { id := 5, accessHash := some 70 }

/-- Ann as her phone number leads to her. -/
def annByPhone : ResolvedPeer :=
  { peer := .user 5, chats := [], users := [.user ann] }

/-- An account that knows nobody. -/
def newcomer : Account :=
  { config := {}, profile := 0 }

/-- The account after it has learnt who has the phone number. -/
def annKnown : Account :=
  learn (.resolvePhone "1555") (.ok ⟨.resolvedPeer, annByPhone⟩) newcomer

/-- The number is resolved. -/
def annResolved : List Event :=
  [.answered (.call (.resolvePhone "1555")) (.ok ⟨.resolvedPeer, annByPhone⟩)]

/-- The user in the index is described. -/
def annDescribed : List Event :=
  [.answered (.call (.getUsers [.user 5 70])) (.ok ⟨.users, [UserEntry.user ann]⟩)]

theorem run_annResolved :
    Run Others.nobody (phone "+1 555") newcomer annResolved (.done (.ok ann)) annKnown :=
  Broadcast.run_phone (by decide) (by decide) rfl rfl rfl

/-- The account after Ann was described. -/
def annConfirmed : Account :=
  learn (.getUsers [.user 5 70]) (.ok ⟨.users, [UserEntry.user ann]⟩) annKnown

theorem run_annDescribed :
    Run Others.nobody (phone "1-555") annKnown annDescribed (.done (.ok ann)) annConfirmed := by
  have hfound : annKnown.peers.findPhone? "1555" = some (⟨.user, 5⟩, 70) := by decide
  have hdigits : Phone.digits "1-555" = "1555" := by decide
  have hsome : "1555".isEmpty = false := by decide
  have hread : Run Others.nobody (read fun a => a.peers.findPhone? "1555") annKnown []
      (.done (some (⟨.user, 5⟩, 70))) annKnown :=
    .of_await (congrArg (fun found => some (found, annKnown)) hfound)
  have hcall : Run Others.nobody (call (.getUsers [.user 5 70])) annKnown annDescribed
      (.done (.ok [UserEntry.user ann])) annConfirmed := .of_call annKnown rfl
  have hindexed : Run Others.nobody (indexed "1555") annKnown annDescribed (.done (.ok (some ann)))
      annConfirmed := hread.bind (hcall.bind (.refl _ _))
  unfold phone
  simp only [hdigits, hsome]
  exact hindexed.bind (.refl _ _)

/-- A number is resolved once. After that its user is asked for with the access hash, under any spelling
of the number. -/
theorem phone_asks_iff_ann :
    Run Others.nobody (phone "+1 555") newcomer annResolved (.done (.ok ann)) annKnown ∧
    Run Others.nobody (phone "1-555") annKnown annDescribed (.done (.ok ann)) annConfirmed ∧
    (∃ c ∈ "+1 555".toList, c.isDigit) ∧
    ∃ hash answer rest, annKnown.peers.find? ⟨.user, 5⟩ = some hash ∧
      calls annDescribed = (.getUsers [.user 5 hash], answer) :: rest ∧ numbers annDescribed = [] := by
  obtain ⟨-, -, hfinished, hnext⟩ := phone_asks_iff Others.nobody "+1 555" newcomer
  obtain ⟨x, -, hasks, -⟩ := hfinished _ _ _ run_annResolved
  have hasked : numbers annResolved ≠ [] := by
    show ["1555"] ≠ []
    decide
  obtain ⟨reply, y, -, hy, hthen⟩ := hnext _ _ _ _ run_annResolved hasked rfl
  have hdirectory : annKnown.peers = (learn (.resolvePhone (Phone.digits "+1 555")) (.ok reply) y).peers :=
    congrArg Account.peers hy
  obtain ⟨z, hash, answer, rest, hz, hhash, hcalls, honly⟩ := hthen Others.nobody "1-555" annKnown
    (by decide) (fun a b hb => hb ▸ .refl _ _) (hdirectory ▸ .refl _ _) _ _ _ run_annDescribed
  obtain rfl : z = annKnown := hz
  exact ⟨run_annResolved, run_annDescribed, (hasks.1 hasked).1, hash, answer, rest, hhash, hcalls, rfl⟩

end Telebridge.Resolve
