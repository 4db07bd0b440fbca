import Mathlib.Data.List.Chain
import Telebridge.Proofs.Call.Retry
import Telebridge.Proofs.Session.DialogPages
set_option autoImplicit false

/-! # The reading of dialogs comes to its end

The reading of dialogs does not count its pages. It ends because the date at which a page begins goes
down: a server that goes by date shows only older messages below a date, and the next page begins at one
of them. Errors that go away leave the date where it is, so they may come as often as they like, but not
for ever. `Descends` describes the reading from a page on, and `DescendingRead` what can be seen of the
whole: the dates, the repeated requests, and where it stops (`run_descends`). -/

namespace Telebridge.DialogSync

open Program Pipeline

/-! ## Servers that go by date -/

/-- The dates on a page; empty messages have none. -/
def datesOf : DialogPage → List Int32
  | .full list | .slice _ list => list.messages.filterMap MessageEntry.date?
  | .notModified _ => []

/-- A page that a server gives which goes by date: in whatever order, its dates are positive, and below
the date that was asked for. -/
structure GoesByDate (query : DialogQuery) (page : DialogPage) : Prop where
  positive : ∀ date ∈ datesOf page, 0 < date
  below : 0 < query.offsetDate → ∀ date ∈ datesOf page, date < query.offsetDate

/-- What can happen while such a server answers: it goes by date, and there are at most `bound` errors
that go away. -/
structure Dated (bound : Nat) (t : List Event) (e : Event) : Prop where
  page : ∀ query page, e = .answered (.call (.getDialogs query)) (.ok ⟨.dialogs, page⟩) →
    GoesByDate query page
  error : ∀ request error, e = .answered (.call request) (.error error) → error.backoff?.isSome →
    refusals (calls t) < bound

/-! ## The end of the reading -/

/-- The request for the page that begins at a date. -/
def pageRequest (limit offset : Int32) : Request :=
  .getDialogs { offsetDate := offset, limit }

/-- After which calls there is nothing more to ask for. -/
inductive Final (limit : Int32) : Call → Prop
  | full {query : DialogQuery} {list : DialogList} :
      Final limit (.getDialogs query, .ok ⟨.dialogs, .full list⟩)
  | notModified {query : DialogQuery} {count : Int32} :
      Final limit (.getDialogs query, .ok ⟨.dialogs, .notModified count⟩)
  | short {query : DialogQuery} {count : Int32} {list : DialogList}
      (h : list.messages.length < limit.toInt.toNat) :
      Final limit (.getDialogs query, .ok ⟨.dialogs, .slice count list⟩)
  | undated {query : DialogQuery} {count : Int32} {list : DialogList}
      (h : ∀ m ∈ list.messages, m.date? = none) :
      Final limit (.getDialogs query, .ok ⟨.dialogs, .slice count list⟩)
  | refused {request : Request} {e : CallError} (h : e.backoff? = none) :
      Final limit (request, .error e)
  | unexpected {query : DialogQuery} {reply : Reply} (h : reply.kind ≠ .dialogs) :
      Final limit (.getDialogs query, .ok reply)

/-- The offsets of the requests for dialogs that got a reply. -/
def answeredOffsets (cs : List Call) : List Int32 :=
  cs.filterMap fun
    | (.getDialogs query, .ok _) => some query.offsetDate
    | _ => none

/-- What can be seen of a whole reading. -/
structure DescendingRead (limit : Int32) (t : List Event) : Prop where
  /-- All calls ask for a page. -/
  requests : ∀ c ∈ calls t, ∃ offset, c.1 = pageRequest limit offset
  /-- After the first page the dates of the pages go down. -/
  descends : answeredOffsets (calls t) = [] ∨
    ∃ later, answeredOffsets (calls t) = 0 :: later ∧ later.Pairwise (· > ·) ∧ ∀ date ∈ later, 0 < date
  /-- After an error the same request is made again. -/
  repeats : (calls t).IsChain fun c d => ∀ e, c.2 = .error e → d.1 = c.1
  /-- Only the last call can be final. -/
  continues : ∀ c ∈ (calls t).dropLast, ¬ Final limit c
  /-- The reading stops at a final call, or when a wait is cancelled. -/
  stops : (∃ c, (calls t).getLast? = some c ∧ Final limit c) ∨
    ∃ u ms, t = u ++ [.paused ms .cancelled]
  /-- Nothing happens after a wait is cancelled. -/
  leaves : ∀ u ms v, t = u ++ .paused ms .cancelled :: v → v = []

/-! ## The date of the next page -/

variable {limit offset next : Int32} {page : DialogPage} {query : DialogQuery}

/-- The next page begins at a date on this one. -/
theorem mem_datesOf_of_next (h : nextOffset? limit page = some next) : next ∈ datesOf page := by
  cases page with
  | slice count list =>
    simp only [nextOffset?] at h
    split at h
    · obtain ⟨m, hm, hdate⟩ := List.exists_of_findSome?_eq_some h
      exact List.mem_filterMap.2 ⟨m, List.mem_reverse.1 hm, hdate⟩
    · cases h
  | full | notModified => cases h

/-- A page is followed by another exactly if it is not a last one. -/
theorem final_iff_next :
    Final limit (.getDialogs query, .ok ⟨.dialogs, page⟩) ↔ nextOffset? limit page = none := by
  constructor
  · intro h
    cases h with
    | full | notModified => rfl
    | short h => exact if_neg (Nat.not_le.2 h)
    | undated h =>
      simp only [nextOffset?, lastDate?, ite_eq_right_iff]
      exact fun _ => List.findSome?_eq_none_iff.2 fun m hm => h m (List.mem_reverse.1 hm)
    | unexpected h => exact absurd rfl h
  · intro h
    cases page with
    | full list => exact .full
    | notModified count => exact .notModified
    | slice count list =>
      simp only [nextOffset?] at h
      split at h
      · exact .undated fun m hm => List.findSome?_eq_none_iff.1 h m (List.mem_reverse.2 hm)
      · next hshort => exact .short (Nat.not_le.1 hshort)

theorem not_final_of_backoff {request : Request} {e : CallError} {ms : Nat}
    (h : e.backoff? = some ms) : ¬ Final limit (request, .error e) := by
  intro hfinal
  cases hfinal with
  | refused hnone =>
    rw [hnone] at h
    cases h

/-- How far the dates can still go down from a page on. The first page has no date. -/
def ahead (offset : Int32) : Nat :=
  if offset = 0 then Int32.maxValue.toInt.toNat + 1 else offset.toInt.toNat

theorem ahead_next (hpos : 0 < next) (h : offset = 0 ∨ next < offset) : ahead next < ahead offset := by
  have hnext : next ≠ 0 := (Int32.ne_of_lt hpos).symm
  rw [ahead, if_neg hnext, ahead]
  rw [Int32.lt_iff_toInt_lt] at hpos
  have hzero : (0 : Int32).toInt = 0 := rfl
  split
  · have hmax : next.toInt < 2147483648 := Int32.toInt_lt next
    have hvalue : Int32.maxValue.toInt = 2147483647 := rfl
    omega
  · next hne =>
    have hlt := Int32.lt_iff_toInt_lt.1 (h.resolve_left hne)
    omega

/-! ## The reading from a page on -/

/-- The reading from the page at a date on: a last page or a final error, the page at an earlier date, the
same page again after an error and a wait, or a wait that is cancelled. -/
inductive Descends (limit : Int32) : Int32 → List Event → Prop
  | last {offset : Int32} {answer : Except CallError Reply} {es : List Event}
      (hes : Exchange (pageRequest limit offset) answer es)
      (h : Final limit (pageRequest limit offset, answer)) : Descends limit offset es
  | next {offset next : Int32} {page : DialogPage} {es t : List Event}
      (hes : Exchange (pageRequest limit offset) (.ok ⟨.dialogs, page⟩) es)
      (h : nextOffset? limit page = some next) (hpos : 0 < next) (hlt : offset = 0 ∨ next < offset)
      (ht : Descends limit next t) : Descends limit offset (es ++ t)
  | again {offset : Int32} {e : CallError} {ms : Nat} {es t : List Event}
      (hes : Exchange (pageRequest limit offset) (.error e) es) (h : e.backoff? = some ms)
      (ht : Descends limit offset t) : Descends limit offset (es ++ .paused ms .elapsed :: t)
  | cancelled {offset : Int32} {e : CallError} {ms : Nat} {es : List Event}
      (hes : Exchange (pageRequest limit offset) (.error e) es) (h : e.backoff? = some ms) :
      Descends limit offset (es ++ [.paused ms .cancelled])

namespace Descends

variable {t : List Event}

/-- A call, a wait, and what follows. -/
theorem calls_paused {request : Request} {answer : Except CallError Reply} {es : List Event} {ms : Nat}
    {how : Pause} (hes : Exchange request answer es) :
    calls (es ++ .paused ms how :: t) = (request, answer) :: calls t :=
  hes.calls_append _

/-- The first call asks for the page. -/
theorem calls_eq_cons (h : Descends limit offset t) :
    ∃ answer rest, calls t = (pageRequest limit offset, answer) :: rest := by
  cases h with
  | last hes _ => exact ⟨_, [], hes.calls_eq⟩
  | next hes _ _ _ _ => exact ⟨_, _, hes.calls_append _⟩
  | again hes _ _ | cancelled hes _ => exact ⟨_, _, calls_paused hes⟩

theorem requests (h : Descends limit offset t) :
    ∀ c ∈ calls t, ∃ offset, c.1 = pageRequest limit offset := by
  induction h with
  | last hes _ =>
    rw [hes.calls_eq]
    exact List.forall_mem_cons.2 ⟨⟨_, rfl⟩, List.forall_mem_nil _⟩
  | next hes _ _ _ _ ih =>
    rw [hes.calls_append]
    exact List.forall_mem_cons.2 ⟨⟨_, rfl⟩, ih⟩
  | again hes _ _ ih =>
    rw [calls_paused hes]
    exact List.forall_mem_cons.2 ⟨⟨_, rfl⟩, ih⟩
  | cancelled hes _ =>
    rw [calls_paused hes]
    exact List.forall_mem_cons.2 ⟨⟨_, rfl⟩, List.forall_mem_nil _⟩

/-- The dates of the answered pages go down from the first one on. -/
theorem answeredOffsets_eq (h : Descends limit offset t) :
    answeredOffsets (calls t) = [] ∨
      ∃ later, answeredOffsets (calls t) = offset :: later ∧ later.Pairwise (· > ·) ∧
        ∀ date ∈ later, 0 < date ∧ (offset = 0 ∨ date < offset) := by
  induction h with
  | @last offset answer es hes _ =>
    rw [hes.calls_eq]
    cases answer with
    | ok reply => exact .inr ⟨[], rfl, .nil, nofun⟩
    | error e => exact .inl rfl
  | @next offset next page es t hes _ hpos hlt _ ih =>
    have hcons : answeredOffsets (calls (es ++ t)) = offset :: answeredOffsets (calls t) := by
      rw [hes.calls_append]
      rfl
    rw [hcons]
    refine .inr ⟨_, rfl, ?_⟩
    obtain hnone | ⟨later, hlater, hdescends, hbelow⟩ := ih
    · rw [hnone]
      exact ⟨.nil, nofun⟩
    · rw [hlater]
      have hnext : ∀ date ∈ later, date < next := fun date hdate =>
        (hbelow date hdate).2.resolve_left (Int32.ne_of_lt hpos).symm
      refine ⟨.cons hnext hdescends, fun date hdate => ?_⟩
      rcases List.mem_cons.1 hdate with rfl | hdate
      · exact ⟨hpos, hlt⟩
      · exact ⟨(hbelow date hdate).1, hlt.imp_right (Int32.lt_trans (hnext date hdate))⟩
  | @again offset e ms es t hes _ _ ih =>
    have hsame : answeredOffsets (calls (es ++ .paused ms .elapsed :: t)) =
        answeredOffsets (calls t) := by
      rw [calls_paused hes]
      rfl
    rwa [hsame]
  | cancelled hes _ =>
    rw [calls_paused hes]
    exact .inl rfl

/-- A call before others: the rest begins with the request that the call asks for. -/
theorem isChain_cons {c : Call} {cs : List Call} {r : Request} {answer : Except CallError Reply}
    {rest : List Call} (hcs : cs = (r, answer) :: rest)
    (hchain : cs.IsChain fun c d => ∀ e, c.2 = .error e → d.1 = c.1)
    (h : ∀ e, c.2 = .error e → r = c.1) :
    (c :: cs).IsChain fun c d => ∀ e, c.2 = .error e → d.1 = c.1 := by
  subst hcs
  exact List.isChain_cons_cons.2 ⟨h, hchain⟩

theorem repeats (h : Descends limit offset t) :
    (calls t).IsChain fun c d => ∀ e, c.2 = .error e → d.1 = c.1 := by
  induction h with
  | last hes _ =>
    rw [hes.calls_eq]
    exact .singleton _
  | next hes _ _ _ ht ih =>
    obtain ⟨answer, rest, hrest⟩ := ht.calls_eq_cons
    rw [hes.calls_append]
    exact isChain_cons hrest ih nofun
  | again hes _ ht ih =>
    obtain ⟨answer, rest, hrest⟩ := ht.calls_eq_cons
    rw [calls_paused hes]
    exact isChain_cons hrest ih fun _ _ => rfl
  | cancelled hes _ =>
    rw [calls_paused hes]
    exact .singleton _

theorem continues (h : Descends limit offset t) : ∀ c ∈ (calls t).dropLast, ¬ Final limit c := by
  induction h with
  | last hes _ =>
    rw [hes.calls_eq]
    exact List.forall_mem_nil _
  | next hes hnext _ _ ht ih =>
    obtain ⟨answer, rest, hrest⟩ := ht.calls_eq_cons
    rw [hes.calls_append, List.dropLast_cons_of_ne_nil (hrest ▸ List.cons_ne_nil _ _)]
    refine List.forall_mem_cons.2 ⟨fun hfinal => ?_, ih⟩
    rw [final_iff_next.1 hfinal] at hnext
    cases hnext
  | again hes hms ht ih =>
    obtain ⟨answer, rest, hrest⟩ := ht.calls_eq_cons
    rw [calls_paused hes, List.dropLast_cons_of_ne_nil (hrest ▸ List.cons_ne_nil _ _)]
    exact List.forall_mem_cons.2 ⟨not_final_of_backoff hms, ih⟩
  | cancelled hes _ =>
    rw [calls_paused hes]
    exact List.forall_mem_nil _

theorem stops (h : Descends limit offset t) :
    (∃ c, (calls t).getLast? = some c ∧ Final limit c) ∨
      ∃ u ms, t = u ++ [.paused ms .cancelled] := by
  induction h with
  | last hes h => exact .inl ⟨_, by rw [hes.calls_eq]; rfl, h⟩
  | @next _ _ _ es _ hes _ _ _ ht ih =>
    refine ih.imp ?_ ?_
    · rintro ⟨c, hc, hfinal⟩
      exact ⟨c, by rw [hes.calls_append, List.getLast?_cons, hc]; rfl, hfinal⟩
    · rintro ⟨u, ms, rfl⟩
      exact ⟨es ++ u, ms, (List.append_assoc ..).symm⟩
  | @again _ _ wait es t hes _ ht ih =>
    refine ih.imp ?_ ?_
    · rintro ⟨c, hc, hfinal⟩
      exact ⟨c, by rw [calls_paused hes, List.getLast?_cons, hc]; rfl, hfinal⟩
    · rintro ⟨u, ms, rfl⟩
      exact ⟨es ++ .paused wait .elapsed :: u, ms, by simp⟩
  | @cancelled _ _ ms es _ _ => exact .inr ⟨es, ms, rfl⟩

/-- In an exchange there is no wait. -/
theorem paused_notMem {request : Request} {answer : Except CallError Reply} {es : List Event} {ms : Nat}
    {how : Pause} (h : Exchange request answer es) : .paused ms how ∉ es := by
  intro hmem
  obtain heq | ⟨updates, o, heq⟩ := h.mem hmem <;> cases heq

/-- Before a cancelled wait there may be events that are none. -/
theorem split_of_notMem {es t u v : List Event} {ms : Nat} (hes : .paused ms .cancelled ∉ es)
    (h : es ++ t = u ++ .paused ms .cancelled :: v) : ∃ u', t = u' ++ .paused ms .cancelled :: v := by
  obtain ⟨w, rfl, hw⟩ | ⟨w, rfl, hw⟩ := List.append_eq_append_iff.1 h
  · exact ⟨w, hw⟩
  · cases w with
    | nil => exact ⟨[], hw.symm⟩
    | cons e w =>
      cases hw
      exact absurd (List.mem_append_right u List.mem_cons_self) hes

theorem leaves (h : Descends limit offset t) :
    ∀ u ms v, t = u ++ .paused ms .cancelled :: v → v = [] := by
  induction h with
  | last hes _ =>
    rintro u ms v rfl
    exact absurd (List.mem_append_right u List.mem_cons_self) (paused_notMem hes)
  | next hes _ _ _ _ ih =>
    intro u ms v heq
    obtain ⟨u', hrest⟩ := split_of_notMem (paused_notMem hes) heq
    exact ih u' ms v hrest
  | again hes _ _ ih =>
    intro u ms v heq
    rw [List.append_cons] at heq
    obtain ⟨u', hrest⟩ := split_of_notMem (by simpa using paused_notMem hes) heq
    exact ih u' ms v hrest
  | cancelled hes _ =>
    intro u ms v heq
    obtain ⟨u', hrest⟩ := split_of_notMem (paused_notMem hes) heq
    cases u' with
    | nil =>
      cases hrest
      rfl
    | cons e u' => simp at hrest

/-- What can be seen of a reading from the first page on. -/
theorem descendingRead (h : Descends limit 0 t) : DescendingRead limit t where
  requests := h.requests
  descends := h.answeredOffsets_eq.imp_right fun ⟨later, hlater, hdescends, hpos⟩ =>
    ⟨later, hlater, hdescends, fun date hdate => (hpos date hdate).1⟩
  repeats := h.repeats
  continues := h.continues
  stops := h.stops
  leaves := h.leaves

end Descends

/-! ## Runs -/

variable {R : Others} {bound : Nat}

/-- The next page that a server gives which goes by date begins at an earlier date. -/
theorem next_below (hpage : GoesByDate { offsetDate := offset, limit } page)
    (hoffset : offset = 0 ∨ 0 < offset) (h : nextOffset? limit page = some next) :
    0 < next ∧ (offset = 0 ∨ next < offset) :=
  ⟨hpage.positive next (mem_datesOf_of_next h),
    hoffset.imp_right fun hpos => hpage.below hpos next (mem_datesOf_of_next h)⟩

/-- What the reading gets for a request that has been answered. -/
theorem outcome_cases (limit offset : Int32) (answer : Except CallError Reply) :
    (∃ page, answer = .ok ⟨.dialogs, page⟩ ∧
      outcome (.getDialogs { offsetDate := offset, limit }) answer = .ok page) ∨
    ∃ e, outcome (.getDialogs { offsetDate := offset, limit }) answer = .error e ∧
      (answer = .error e ∨
        e.backoff? = none ∧ Final limit (pageRequest limit offset, answer)) := by
  cases answer with
  | error e => exact .inr ⟨e, rfl, .inl rfl⟩
  | ok reply =>
    obtain ⟨kind, value⟩ := reply
    by_cases hkind : kind = .dialogs
    · subst hkind
      exact .inl ⟨value, rfl, rfl⟩
    · refine .inr ⟨.unexpectedResult (Request.method (.getDialogs { offsetDate := offset, limit }))
        kind.name, ?_, .inr ⟨rfl, .unexpected hkind⟩⟩
      cases kind <;> first | rfl | exact absurd rfl hkind

/-- An event that is not a call can always happen. -/
theorem dated_of_call? {t : List Event} {e : Event} (h : call? e = none) : Dated bound t e where
  page := by
    rintro query page rfl
    cases h
  error := by
    rintro request error rfl
    cases h

theorem dated_page {t : List Event} (h : GoesByDate query page) :
    Dated bound t (.answered (.call (.getDialogs query)) (.ok ⟨.dialogs, page⟩)) where
  page := by
    rintro query page heq
    cases heq
    exact h
  error := by
    rintro request error heq
    cases heq

theorem dated_error {t : List Event} {request : Request} {e : CallError}
    (h : refusals (calls t) < bound) : Dated bound t (.answered (.call request) (.error e)) where
  page := by
    rintro query page heq
    cases heq
  error _ _ _ _ := h

/-- The server can always answer. -/
theorem exists_dated (t : List Event) :
    ∃ answer, Dated bound t (.answered (.call (.getDialogs query)) answer) :=
  ⟨.ok ⟨.dialogs, .notModified 0⟩, dated_page ⟨List.forall_mem_nil _, fun _ => List.forall_mem_nil _⟩⟩

/-- After a history the reading is about to ask for the page at a date: what is read from there on
completes the reading, and the dates can still go down or the server refuse at most so many times. -/
structure Reading (limit : Int32) (bound n : Nat) (offset : Int32) (t : List Event) : Prop where
  completes : ∀ u, Descends limit offset u → Descends limit 0 (t ++ u)
  dated : offset = 0 ∨ 0 < offset
  left : n = ahead offset + (bound - refusals (calls t))

namespace Reading

variable {n : Nat} {t es : List Event}

/-- With a page the dates go down. -/
theorem after_page (h : Reading limit bound n offset t)
    (hes : Exchange (pageRequest limit offset) (.ok ⟨.dialogs, page⟩) es)
    (hpage : GoesByDate { offsetDate := offset, limit } page)
    (hnext : nextOffset? limit page = some next) :
    ∃ m < n, Reading limit bound m next (t ++ es) := by
  obtain ⟨hpos, hlt⟩ := next_below hpage h.dated hnext
  have hrefusals : refusals (calls (t ++ es)) = refusals (calls t) := by
    rw [calls_append, hes.calls_eq, refusals_snoc_ok]
  refine ⟨_, ?_, fun u hu => ?_, .inr hpos, rfl⟩
  · rw [h.left, hrefusals]
    exact Nat.add_lt_add_right (ahead_next hpos hlt) _
  · rw [List.append_assoc]
    exact h.completes _ (.next hes hnext hpos hlt hu)

/-- With an error there are fewer left. -/
theorem after_error {e : CallError} {ms : Nat} (h : Reading limit bound n offset t)
    (hes : Exchange (pageRequest limit offset) (.error e) es) (hms : e.backoff? = some ms)
    (hleft : refusals (calls t) < bound) :
    ∃ m < n, Reading limit bound m offset (t ++ es ++ [.paused ms .elapsed]) := by
  have hrefusals : refusals (calls (t ++ es ++ [.paused ms .elapsed])) = refusals (calls t) + 1 := by
    rw [calls_append, calls_append, hes.calls_eq]
    exact (congrArg refusals (List.append_nil _)).trans (refusals_snoc_error _ _ _)
  refine ⟨_, ?_, fun u hu => ?_, h.dated, rfl⟩
  · rw [h.left, hrefusals]
    omega
  · simpa using h.completes _ (.again hes hms hu)

end Reading

/-- A turn of the reading comes to its end, and brings the whole closer to it. -/
theorem turn_descends {n : Nat} {t : List Event} {a : Account} (h : Reading limit bound n offset t) :
    Returns R (Dated bound)
      (EndOfTurn (fun offset t _ => ∃ m < n, Reading limit bound m offset t)
        (fun _ t _ => Descends limit 0 t))
      (turn limit offset) t a := by
  refine Returns.call (exists_dated t) (fun _ _ _ _ => ⟨.ok (), dated_of_call? rfl⟩) ?_
  intro answer es a₁ a₂ _ _ hes henv
  have hdated := hes.allowed henv
  obtain ⟨page, rfl, houtcome⟩ | ⟨e, houtcome, herror⟩ := outcome_cases limit offset answer
  · simp only [houtcome]
    cases hnext : nextOffset? limit page with
    | none => exact .done fun _ _ => h.completes es (.last hes (final_iff_next.2 hnext))
    | some next => exact .done fun _ _ => h.after_page hes (hdated.page _ _ rfl) hnext
  · simp only [houtcome]
    cases hms : e.backoff? with
    | none =>
      have hfinal : Final limit (pageRequest limit offset, answer) := by
        obtain rfl | ⟨-, hfinal⟩ := herror
        · exact .refused hms
        · exact hfinal
      exact .done fun _ _ => h.completes es (.last hes hfinal)
    | some ms =>
      obtain rfl : answer = .error e := herror.resolve_right fun ⟨hnone, _⟩ => by
        rw [hnone] at hms
        cases hms
      refine Returns.pause ⟨.elapsed, dated_of_call? rfl⟩ fun how a₃ _ _ => ?_
      cases how with
      | cancelled =>
        refine .done fun _ _ => ?_
        show Descends limit 0 (t ++ es ++ [.paused ms .cancelled])
        rw [List.append_assoc]
        exact h.completes _ (.cancelled hes hms)
      | elapsed =>
        exact .done fun _ _ => h.after_error hes hms (hdated.error _ _ rfl (Option.isSome_of_eq_some hms))

/-- The reading comes to its end and goes down page by page, whatever a server answers that goes by
date. -/
theorem run_descends {a : Account} (hconfig : ∀ a b, R.may a b → b.config = a.config) :
    Returns R (Dated bound) (fun _ t _ => DescendingRead a.config.dialogsPage t) run [] a := by
  refine Returns.mono (Q := fun _ t _ => Descends a.config.dialogsPage 0 t) ?_
    fun _ _ _ h => h.descendingRead
  refine Returns.read fun a₁ ha₁ => ?_
  rw [hconfig a a₁ ha₁]
  exact Returns.iterate (fun n offset t _ => Reading a.config.dialogsPage bound n offset t)
    (fun _ _ _ _ h => turn_descends h) ⟨fun _ h => h, .inl rfl, rfl⟩

/-- Whatever is answered, a reading asks for the first page. -/
theorem run_asks {a b : Account} {t : List Event} (h : Run R run a t (.done ()) b) :
    ∃ x answer, R.may a x ∧
      (calls t).head? = some (pageRequest x.config.dialogsPage 0, answer) := by
  obtain ⟨x, hx, hpages⟩ := Run.read_bind_iff.1 h
  obtain ⟨_, t₁, t₂, _, rfl, hturn, -⟩ := hpages.iterate_first
  obtain ⟨_, t₃, t₄, _, rfl, hcall, -⟩ := hturn.bind_done
  obtain ⟨answer, _, hes, -⟩ := hcall.call_done
  refine ⟨x, answer, hx, ?_⟩
  rw [calls_append, calls_append, hes.calls_eq]
  rfl

/-! ## A page that ends with an empty message -/

/-- A page of two messages of a longer list, of which the second is empty. -/
def halfEmptyPage : DialogPage :=
  .slice 3
    { dialogs := [], messages := [.service false 1 (.user 5) 1700000000, .empty 2 none], chats := [],
      users := [] }

/-- A page without messages. -/
def emptyPage : DialogPage :=
  .slice 3 { dialogs := [], messages := [], chats := [], users := [] }

/-- A flood wait of three seconds. -/
def floodWait : CallError :=
  .rpc { code := 420, name := "FLOOD_WAIT", value := some 3 }

/-- The account that reads pages of two dialogs. -/
def pairReader : Account := { config := { dialogsPage := 2 }, profile := 0 }

/-- The reading of two pages, with a flood wait before the second. -/
def floodedRead : List Event :=
  [.answered (.call (pageRequest 2 0)) (.ok ⟨.dialogs, halfEmptyPage⟩)] ++
    (([.answered (.call (pageRequest 2 1700000000)) (.error floodWait)] ++ [.paused 3000 .elapsed]) ++
      [.answered (.call (pageRequest 2 1700000000)) (.ok ⟨.dialogs, emptyPage⟩)])

theorem run_floodedRead : ∃ b, Run Others.nobody run pairReader floodedRead (.done ()) b := by
  have hexchange : Exchange (pageRequest 2 1700000000) (.error floodWait)
      [.answered (.call (pageRequest 2 1700000000)) (.error floodWait)] := rfl
  have hwait (a : Account) : Run Others.nobody (turn 2 1700000000) a
      ([.answered (.call (pageRequest 2 1700000000)) (.error floodWait)] ++ [.paused 3000 .elapsed])
      (.done (.inl 1700000000)) a :=
    (Run.of_exchange a hexchange).bind (.single ⟨.elapsed, ⟨rfl, rfl⟩, rfl⟩)
  have hpages := (run_turn_page 2 0 halfEmptyPage pairReader).iterate_turn
    ((hwait _).iterate_turn (run_turn_page 2 1700000000 emptyPage _).iterate_done)
  exact ⟨_, Run.read_bind_iff.2 ⟨pairReader, rfl, hpages⟩⟩

theorem dated_floodedRead : Environment.Allows (Dated 1) [] floodedRead := by
  have hdates : datesOf halfEmptyPage = [1700000000] := rfl
  have hpage : GoesByDate { offsetDate := 0, limit := 2 } halfEmptyPage := by
    refine ⟨?_, fun h => absurd h Int32.lt_irrefl⟩
    rw [hdates]
    exact List.forall_mem_singleton.2 (by decide)
  have hempty : GoesByDate { offsetDate := 1700000000, limit := 2 } emptyPage :=
    ⟨List.forall_mem_nil _, fun _ => List.forall_mem_nil _⟩
  exact ⟨dated_page hpage, dated_error (by decide), dated_of_call? rfl, dated_page hempty, trivial⟩

theorem run_descends_floodedRead :
    (∀ a b, Others.nobody.may a b → b.config = a.config) ∧
    (∃ b, Run Others.nobody run pairReader floodedRead (.done ()) b) ∧
    Environment.Allows (Dated 1) [] floodedRead ∧ DescendingRead 2 floodedRead := by
  have hconfig : ∀ a b, Others.nobody.may a b → b.config = a.config := by
    rintro a _ rfl
    rfl
  obtain ⟨b, hrun⟩ := run_floodedRead
  exact ⟨hconfig, ⟨b, hrun⟩, dated_floodedRead, (run_descends hconfig).of_run hrun dated_floodedRead⟩

end Telebridge.DialogSync
