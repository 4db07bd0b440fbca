import Telebridge.Proofs.Account.DirectoryLog
import Telebridge.Proofs.Call.Pipeline
import Telebridge.Proofs.Program.Finished
import Telebridge.Session.DialogSync
set_option autoImplicit false

/-! # What the reading of dialogs reaches

A server that lists conversations by date gives page after page. The next page begins below the date of
the last conversation on the page before, so a conversation with that same date is passed over if it did
not fit on the page. If no two conversations on both sides of a page's end have the same date, the
directory knows every user at the end, and otherwise it does not (`run_knows_pagesApart`). -/

namespace Telebridge.DialogSync

open Program

/-! ## Servers -/

/-- A conversation with a user: the date of its latest message, and the user with its access hash. -/
structure Conversation where
  date : Int32
  user : User
  hash : Int64
  accessHash : user.accessHash = some hash

/-- The conversations that a server lists: the newest first, with dates that are positive, and with one
access hash for each user. -/
structure DialogServer where
  conversations : List Conversation
  newestFirst : conversations.Pairwise fun c d => d.date ≤ c.date
  positive : ∀ c ∈ conversations, 0 < c.date
  oneHash : ∀ c ∈ conversations, ∀ d ∈ conversations, c.user.id = d.user.id → c.hash = d.hash

namespace DialogServer

variable (s : DialogServer)

/-- The conversations below a date; all of them below the date zero. -/
def below (date : Int32) : List Conversation :=
  if date = 0 then s.conversations else s.conversations.filter fun c => c.date < date

/-- The page that a request asks for. -/
def page (query : DialogQuery) : List Conversation :=
  (s.below query.offsetDate).take query.limit.toInt.toNat

/-- A list of dialogs shows some conversations: each with its latest message and its user. -/
structure Shows (list : DialogList) (page : List Conversation) : Prop where
  messages : list.messages.map MessageEntry.date? = page.map fun c => some c.date
  users : list.users = page.map fun c => .user c.user

/-- What can happen while the server answers: it gives the slices that it is asked for, or an error that
goes away, and nobody cancels. -/
structure Honest (e : Event) : Prop where
  reply : ∀ query reply, e = .answered (.call (.getDialogs query)) (.ok reply) →
    ∃ count list, reply = ⟨.dialogs, .slice count list⟩ ∧ Shows list (s.page query)
  error : ∀ request error, e = .answered (.call request) (.error error) → error.backoff?.isSome
  pause : ∀ ms how, e = .paused ms how → how = .elapsed

/-- The last conversation of so many pages and the one that follows it have different dates. -/
def ApartAt (size k : Nat) : Prop :=
  ∀ c d, s.conversations[k * size - 1]? = some c → s.conversations[k * size]? = some d →
    d.date ≠ c.date

/-- Wherever a page ends, the dates differ. -/
def PagesApart (size : Nat) : Prop :=
  ∀ k, 0 < k → s.ApartAt size k

/-! ## Conversations in their order -/

variable {s}

theorem date_ne_zero {c : Conversation} (h : c ∈ s.conversations) : c.date ≠ 0 :=
  (Int32.ne_of_lt (s.positive c h)).symm

theorem date_le {i j : Nat} {c d : Conversation} (hij : i ≤ j) (hc : s.conversations[i]? = some c)
    (hd : s.conversations[j]? = some d) : d.date ≤ c.date := by
  obtain ⟨hi, rfl⟩ := List.getElem?_eq_some_iff.1 hc
  obtain ⟨hj, rfl⟩ := List.getElem?_eq_some_iff.1 hd
  rcases Nat.eq_or_lt_of_le hij with rfl | hlt
  · exact Int32.le_refl _
  · exact List.pairwise_iff_getElem.1 s.newestFirst i j hi hj hlt

/-- Conversations in two places are with two users, if each is with another user. -/
theorem id_ne {i j : Nat} {c d : Conversation}
    (hdistinct : s.conversations.Pairwise fun c d => c.user.id ≠ d.user.id) (hij : i ≠ j)
    (hc : s.conversations[i]? = some c) (hd : s.conversations[j]? = some d) :
    c.user.id ≠ d.user.id := by
  obtain ⟨hi, rfl⟩ := List.getElem?_eq_some_iff.1 hc
  obtain ⟨hj, rfl⟩ := List.getElem?_eq_some_iff.1 hd
  rcases Nat.lt_or_gt_of_ne hij with hlt | hlt
  · exact List.pairwise_iff_getElem.1 hdistinct i j hi hj hlt
  · exact (List.pairwise_iff_getElem.1 hdistinct j i hj hi hlt).symm

/-- Below the date of the last of some conversations are all the others, unless the first of these has
the same date. -/
theorem below_eq_drop {m : Nat} {c : Conversation} (hc : s.conversations[m - 1]? = some c)
    (hapart : ∀ d, s.conversations[m]? = some d → d.date ≠ c.date) :
    s.below c.date = s.conversations.drop m := by
  have htake : (s.conversations.take m).filter (fun d => d.date < c.date) = [] := by
    refine List.filter_eq_nil_iff.2 fun d hd => ?_
    obtain ⟨i, hi⟩ := List.mem_iff_getElem?.1 hd
    rw [List.getElem?_take] at hi
    split at hi
    · next him => simpa using date_le (Nat.le_sub_one_of_lt him) hi hc
    · cases hi
  have hdrop : (s.conversations.drop m).filter (fun d => d.date < c.date) = s.conversations.drop m := by
    refine List.filter_eq_self.2 fun d hd => ?_
    obtain ⟨i, hi⟩ := List.mem_iff_getElem?.1 hd
    rw [List.getElem?_drop] at hi
    obtain ⟨hlt, -⟩ := List.getElem?_eq_some_iff.1 hi
    obtain ⟨first, hfirst⟩ : ∃ first, s.conversations[m]? = some first :=
      ⟨_, List.getElem?_eq_getElem (Nat.lt_of_le_of_lt (Nat.le_add_right m i) hlt)⟩
    have hle : d.date ≤ first.date := date_le (Nat.le_add_right m i) hfirst hi
    have hlast : first.date < c.date :=
      Int32.lt_of_le_of_ne (date_le (Nat.sub_le m 1) hc hfirst) (hapart first hfirst)
    exact decide_eq_true (Int32.lt_of_le_of_lt hle hlast)
  rw [below, if_neg (date_ne_zero (List.mem_of_getElem? hc))]
  conv => lhs; rw [← List.take_append_drop m s.conversations]
  rw [List.filter_append, htake, hdrop, List.nil_append]

end DialogServer

/-! ## Turns -/

/-- Where the next page begins depends on the conversations that this one shows. -/
theorem nextOffset?_slice {limit : Int32} {count : Int32} {list : DialogList}
    {page : List Conversation} (h : DialogServer.Shows list page) :
    nextOffset? limit (.slice count list) =
      if limit.toInt.toNat ≤ page.length then page.getLast?.map Conversation.date else none := by
  have hlength : list.messages.length = page.length := by
    simpa using congrArg List.length h.messages
  have hlast : lastDate? list.messages = page.getLast?.map Conversation.date := by
    have hdates : lastDate? list.messages =
        (list.messages.map MessageEntry.date?).reverse.findSome? id := by
      rw [lastDate?, ← List.map_reverse, List.findSome?_map]
      rfl
    rw [hdates, h.messages, ← List.map_reverse, List.findSome?_map]
    rw [← List.head?_reverse]
    cases page.reverse <;> rfl
  simp only [nextOffset?, hlength, hlast]

variable {R : Others} {s : DialogServer} {limit : Int32}

/-- What holds at the end of the reading of dialogs, if each page keeps `I` and the last one leads to
`Q`, and the others keep both. -/
theorem safe_run {I : Int32 → PeerDirectory → Prop} {Q : PeerDirectory → Prop} {a : Account}
    (hconfig : ∀ a b, R.may a b → b.config = a.config) (hlimit : a.config.dialogsPage = limit)
    (hI : ∀ offset a b, R.may a b → I offset a.peers → I offset b.peers)
    (hQ : ∀ a b, R.may a b → Q a.peers → Q b.peers)
    (hnext : ∀ offset d count list next, I offset d →
      DialogServer.Shows list (s.page { offsetDate := offset, limit }) →
      nextOffset? limit (.slice count list) = some next →
      I next (d.apply list.users list.chats))
    (hlast : ∀ offset d count list, I offset d →
      DialogServer.Shows list (s.page { offsetDate := offset, limit }) →
      nextOffset? limit (.slice count list) = none → Q (d.apply list.users list.chats))
    (h : I 0 a.peers) :
    Safe R (fun _ e => s.Honest e) Environment.anything (fun _ _ b => Q b.peers) run [] a := by
  refine Safe.read fun a₀ ha₀ => ?_
  rw [hconfig a a₀ ha₀, hlimit]
  refine Safe.iterate (fun offset _ a => I offset a.peers) (fun offset t a hoffset => ?_) (hI _ _ _ ha₀ h)
  refine Safe.call (fun _ _ => trivial) fun answer es a₁ a' ha₁ ha' hes henv =>
    ⟨Environment.anything_allows _ _, ?_⟩
  have hhonest := hes.allowed henv
  cases answer with
  | ok reply =>
    obtain ⟨count, list, rfl, hshows⟩ := hhonest.reply _ _ rfl
    have hoffset₁ := hI _ _ _ ha₁ hoffset
    have houtcome : Pipeline.outcome (.getDialogs { offsetDate := offset, limit })
        (.ok ⟨.dialogs, .slice count list⟩) = .ok (.slice count list) := rfl
    simp only [houtcome]
    cases hn : nextOffset? limit (.slice count list) with
    | some next =>
      exact Safe.done fun b hb =>
        hI _ _ _ hb (hI next _ _ ha' (hnext _ _ _ _ _ hoffset₁ hshows hn))
    | none =>
      exact Safe.done fun b hb => hQ _ _ hb (hQ _ _ ha' (hlast _ _ _ _ hoffset₁ hshows hn))
  | error e =>
    obtain ⟨ms, hms⟩ := Option.isSome_iff_exists.1 (hhonest.error _ _ rfl)
    have hoffset' : I offset a'.peers := by
      have hoffset₁ := hI _ _ _ ha₁ hoffset
      refine hI _ _ _ ha' ?_
      simp only [Pipeline.learn]
      split <;> exact hoffset₁
    simp only [Pipeline.outcome, hms]
    refine Safe.pause fun how a₂ ha₂ hhow => ⟨trivial, ?_⟩
    cases hhow.pause _ _ rfl
    exact Safe.done fun b hb => hI _ _ _ hb (hI _ _ _ ha₂ hoffset')

/-! ## What is known -/

/-- The directory has the access hash of the user of a conversation. -/
def Conversation.KnownIn (c : Conversation) (d : PeerDirectory) : Prop :=
  d.find? ⟨.user, c.user.id⟩ = some c.hash

section

variable {list : DialogList} {page : List Conversation} {d : PeerDirectory} {c : Conversation}

/-- The access hashes that a page brings are those of its conversations. -/
theorem hash_mem_shown (h : DialogServer.Shows list page) {id value : Int64} :
    PeerDirectory.Entry.hash ⟨.user, id⟩ value ∈ PeerDirectory.batchEntries list.users list.chats ↔
      ∃ c ∈ page, c.user.id = id ∧ c.hash = value := by
  rw [PeerDirectory.hash_user_mem_batchEntries, h.users]
  constructor
  · rintro ⟨u, hu, hid, hvalue⟩
    obtain ⟨c, hc, hcu⟩ := List.mem_map.1 hu
    cases hcu
    exact ⟨c, hc, hid, Option.some.inj (c.accessHash.symm.trans hvalue)⟩
  · rintro ⟨c, hc, hid, rfl⟩
    exact ⟨c.user, List.mem_map.2 ⟨c, hc, rfl⟩, hid, c.accessHash⟩

/-- What a page shows is known afterwards, and what was known stays so. -/
theorem knownIn_apply (h : DialogServer.Shows list page) (hpage : ∀ c ∈ page, c ∈ s.conversations)
    (hc : c ∈ s.conversations) (hknown : c ∈ page ∨ c.KnownIn d) :
    c.KnownIn (d.apply list.users list.chats) := by
  -- all that the page brings for the user is the hash of the user
  have honly : ∀ value, .hash ⟨.user, c.user.id⟩ value ∈
      PeerDirectory.batchEntries list.users list.chats → value = c.hash := by
    intro value hvalue
    obtain ⟨c', hc', hid, rfl⟩ := (hash_mem_shown h).1 hvalue
    exact s.oneHash c' (hpage c' hc') c hc hid
  by_cases hlisted : .hash ⟨.user, c.user.id⟩ c.hash ∈
      PeerDirectory.batchEntries list.users list.chats
  · exact PeerDirectory.find?_apply_of_mem hlisted honly
  · have hnone : ∀ value, .hash ⟨.user, c.user.id⟩ value ∉
        PeerDirectory.batchEntries list.users list.chats := fun value hvalue =>
      hlisted (honly value hvalue ▸ hvalue)
    rcases hknown with hmem | hknown
    · exact absurd ((hash_mem_shown h).2 ⟨c, hmem, rfl, rfl⟩) hlisted
    · exact (PeerDirectory.find?_apply_of_forall_notMem hnone).trans hknown

/-- A page with other users tells nothing of a user. -/
theorem knownIn_apply_iff (h : DialogServer.Shows list page)
    (hother : ∀ c' ∈ page, c'.user.id ≠ c.user.id) :
    c.KnownIn (d.apply list.users list.chats) ↔ c.KnownIn d := by
  have hnone : ∀ value, .hash ⟨.user, c.user.id⟩ value ∉
      PeerDirectory.batchEntries list.users list.chats := by
    intro value hvalue
    obtain ⟨c', hc', hid, -⟩ := (hash_mem_shown h).1 hvalue
    exact hother c' hc' hid
  rw [Conversation.KnownIn, PeerDirectory.find?_apply_of_forall_notMem hnone, Conversation.KnownIn]

end

/-! ## From page to page -/

section

variable {offset next count : Int32} {list : DialogList}

theorem mem_conversations_of_page {query : DialogQuery} {c : Conversation} (h : c ∈ s.page query) :
    c ∈ s.conversations := by
  have hbelow := List.mem_of_mem_take h
  rw [DialogServer.below] at hbelow
  split at hbelow
  · exact hbelow
  · exact (List.mem_filter.1 hbelow).1

theorem date_lt_of_page {c : Conversation} (hoffset : offset ≠ 0)
    (h : c ∈ s.page { offsetDate := offset, limit }) : c.date < offset := by
  have hbelow := List.mem_of_mem_take h
  rw [DialogServer.below, if_neg hoffset, List.mem_filter] at hbelow
  exact of_decide_eq_true hbelow.2

/-- The last page shows all conversations that are left. -/
theorem page_eq_below (hpos : 0 < limit.toInt.toNat)
    (h : DialogServer.Shows list (s.page { offsetDate := offset, limit }))
    (hlast : nextOffset? limit (.slice count list) = none) :
    s.page { offsetDate := offset, limit } = s.below offset := by
  rw [nextOffset?_slice h] at hlast
  have hshort : (s.page { offsetDate := offset, limit }).length < limit.toInt.toNat := by
    refine Nat.lt_of_not_le fun hfull => ?_
    rw [if_pos hfull, Option.map_eq_none_iff, List.getLast?_eq_none_iff] at hlast
    rw [hlast] at hfull
    exact Nat.not_lt.2 hfull hpos
  have hmin : min limit.toInt.toNat (s.below offset).length < limit.toInt.toNat :=
    List.length_take ▸ hshort
  have hall : (s.below offset).length ≤ limit.toInt.toNat := by omega
  exact List.take_of_length_le hall

/-- The next page begins at the date of the last conversation on a full page. -/
theorem getLast?_of_next (h : DialogServer.Shows list (s.page { offsetDate := offset, limit }))
    (hnext : nextOffset? limit (.slice count list) = some next) :
    (s.page { offsetDate := offset, limit }).length = limit.toInt.toNat ∧
      ∃ c, (s.page { offsetDate := offset, limit }).getLast? = some c ∧ c.date = next := by
  rw [nextOffset?_slice h] at hnext
  split at hnext
  · next hfull =>
    refine ⟨Nat.le_antisymm (List.length_take_le _ _) hfull, ?_⟩
    exact Option.map_eq_some_iff.1 hnext
  · cases hnext

/-- After some full pages the next one begins at the date of the last conversation on them. -/
theorem getElem?_of_next {m : Nat} (hbelow : s.below offset = s.conversations.drop m)
    (hpos : 0 < limit.toInt.toNat)
    (h : DialogServer.Shows list (s.page { offsetDate := offset, limit }))
    (hnext : nextOffset? limit (.slice count list) = some next) :
    ∃ c, s.conversations[m + limit.toInt.toNat - 1]? = some c ∧ c.date = next := by
  obtain ⟨hlength, c, hc, hdate⟩ := getLast?_of_next h hnext
  refine ⟨c, ?_, hdate⟩
  rw [List.getLast?_eq_getElem?, hlength, DialogServer.page, hbelow,
    List.getElem?_take_of_lt (Nat.sub_lt hpos Nat.one_pos), List.getElem?_drop] at hc
  rwa [Nat.add_sub_assoc hpos]

end

/-! ## What is reached -/

/-- If the dates keep the pages apart, the directory knows every user when the last page has come. -/
theorem safe_knownIn {a : Account} (hconfig : ∀ a b, R.may a b → b.config = a.config)
    (hkeep : ∀ a b, R.may a b → ∀ c ∈ s.conversations, c.KnownIn a.peers → c.KnownIn b.peers)
    (hlimit : a.config.dialogsPage = limit) (hpos : 0 < limit.toInt.toNat)
    (hapart : s.PagesApart limit.toInt.toNat) :
    Safe R (fun _ e => s.Honest e) Environment.anything
      (fun _ _ b => ∀ c ∈ s.conversations, c.KnownIn b.peers) run [] a := by
  -- so far some full pages have come, and their users are known
  refine safe_run
    (I := fun offset d => ∃ k, s.below offset = s.conversations.drop (k * limit.toInt.toNat) ∧
      ∀ c ∈ s.conversations.take (k * limit.toInt.toNat), c.KnownIn d)
    (Q := fun d => ∀ c ∈ s.conversations, c.KnownIn d) hconfig hlimit ?_ ?_ ?_ ?_ ?_
  · rintro offset a b hab ⟨k, hbelow, hknown⟩
    exact ⟨k, hbelow, fun c hc => hkeep a b hab c (List.mem_of_mem_take hc) (hknown c hc)⟩
  · exact fun a b hab hknown c hc => hkeep a b hab c hc (hknown c hc)
  · rintro offset d count list next ⟨k, hbelow, hknown⟩ hshows hnext
    obtain ⟨c, hc, rfl⟩ := getElem?_of_next hbelow hpos hshows hnext
    rw [← Nat.succ_mul] at hc
    refine ⟨k + 1, DialogServer.below_eq_drop hc fun e he => hapart _ (Nat.succ_pos k) c e hc he, ?_⟩
    intro e he
    refine knownIn_apply hshows (fun _ => mem_conversations_of_page) (List.mem_of_mem_take he) ?_
    rw [Nat.succ_mul, List.take_add, List.mem_append] at he
    rw [DialogServer.page, hbelow]
    exact he.symm.imp id (hknown e)
  · rintro offset d count list ⟨k, hbelow, hknown⟩ hshows hlast c hc
    refine knownIn_apply hshows (fun _ => mem_conversations_of_page) hc ?_
    rw [page_eq_below hpos hshows hlast, hbelow]
    rw [← List.take_append_drop (k * limit.toInt.toNat) s.conversations, List.mem_append] at hc
    exact hc.symm.imp id (hknown c)
  · exact ⟨0, by simp [DialogServer.below], by simp⟩

/-- A conversation at the beginning of a page, with the date of the last one on the page before, is
passed over, if the pages before are apart. -/
theorem safe_not_knownIn {a : Account} {k : Nat} {c d : Conversation}
    (hconfig : ∀ a b, R.may a b → b.config = a.config)
    (hteach : ∀ a b, R.may a b → ¬ d.KnownIn a.peers → ¬ d.KnownIn b.peers)
    (hlimit : a.config.dialogsPage = limit) (hpos : 0 < limit.toInt.toNat)
    (hdistinct : s.conversations.Pairwise fun c d => c.user.id ≠ d.user.id)
    (hapart : ∀ j < k, 0 < j → s.ApartAt limit.toInt.toNat j)
    (hc : s.conversations[k * limit.toInt.toNat - 1]? = some c)
    (hd : s.conversations[k * limit.toInt.toNat]? = some d) (hk : 0 < k) (hdate : d.date = c.date)
    (ha : ¬ d.KnownIn a.peers) :
    Safe R (fun _ e => s.Honest e) Environment.anything (fun _ _ b => ¬ d.KnownIn b.peers) run [] a := by
  -- the pages before it come first; then only conversations below its date are asked for
  let Ahead (offset : Int32) : Prop :=
    (∃ j < k, s.below offset = s.conversations.drop (j * limit.toInt.toNat)) ∨
      (offset ≠ 0 ∧ offset ≤ d.date)
  have hother : ∀ offset, Ahead offset →
      ∀ e ∈ s.page { offsetDate := offset, limit }, e.user.id ≠ d.user.id := by
    intro offset hahead e he
    obtain ⟨i, hi, hne⟩ : ∃ i, s.conversations[i]? = some e ∧ i ≠ k * limit.toInt.toNat := by
      rcases hahead with ⟨j, hj, hbelow⟩ | ⟨hzero, hle⟩
      · rw [DialogServer.page, hbelow] at he
        obtain ⟨i, hi⟩ := List.mem_iff_getElem?.1 he
        rw [List.getElem?_take, List.getElem?_drop] at hi
        split at hi
        · next hlt =>
          have hpages : (j + 1) * limit.toInt.toNat ≤ k * limit.toInt.toNat := Nat.mul_le_mul_right _ hj
          rw [Nat.succ_mul] at hpages
          have hplace : i < limit.toInt.toNat := hlt
          exact ⟨_, hi, by omega⟩
        · cases hi
      · obtain ⟨i, hi⟩ := List.mem_iff_getElem?.1 (mem_conversations_of_page he)
        refine ⟨i, hi, ?_⟩
        rintro rfl
        rw [hd] at hi
        cases hi
        exact Int32.lt_irrefl (Int32.lt_of_lt_of_le (date_lt_of_page hzero he) hle)
    exact DialogServer.id_ne hdistinct hne hi hd
  have hnext : ∀ offset count list next, Ahead offset →
      DialogServer.Shows list (s.page { offsetDate := offset, limit }) →
      nextOffset? limit (.slice count list) = some next → Ahead next := by
    rintro offset count list next hahead hshows hnext
    rcases hahead with ⟨j, hj, hbelow⟩ | ⟨hzero, hle⟩
    · obtain ⟨e, he, rfl⟩ := getElem?_of_next hbelow hpos hshows hnext
      rw [← Nat.succ_mul] at he
      rcases Nat.eq_or_lt_of_le (Nat.succ_le_of_lt hj) with rfl | hlt
      · rw [hc] at he
        cases he
        exact .inr ⟨DialogServer.date_ne_zero (List.mem_of_getElem? hc), hdate ▸ Int32.le_refl _⟩
      · exact .inl ⟨j + 1, hlt, DialogServer.below_eq_drop he fun f hf =>
          hapart _ hlt (Nat.succ_pos j) e f he hf⟩
    · obtain ⟨-, e, he, rfl⟩ := getLast?_of_next hshows hnext
      have hmem := List.mem_of_getLast? he
      exact .inr ⟨DialogServer.date_ne_zero (mem_conversations_of_page hmem),
        Int32.le_trans (Int32.le_of_lt (date_lt_of_page hzero hmem)) hle⟩
  refine safe_run (I := fun offset p => Ahead offset ∧ ¬ d.KnownIn p)
    (Q := fun p => ¬ d.KnownIn p) hconfig hlimit ?_ hteach ?_ ?_ ?_
  · exact fun offset a b hab h => ⟨h.1, hteach a b hab h.2⟩
  · intro offset p count list next h hshows hn
    exact ⟨hnext _ _ _ _ h.1 hshows hn, fun hd => h.2 ((knownIn_apply_iff hshows (hother _ h.1)).1 hd)⟩
  · exact fun offset p count list h hshows _ hd =>
      h.2 ((knownIn_apply_iff hshows (hother _ h.1)).1 hd)
  · exact ⟨.inl ⟨0, hk, by simp [DialogServer.below]⟩, ha⟩

/-- What the directory knows when the reading of dialogs has ended, if the others leave the access hashes
of the users alone: every user, if wherever a page ends the dates differ. If they do not, and the users
are different and were not known before, then some user is still not known. -/
theorem run_knows_pagesApart {a b : Account} {t : List Event}
    (hconfig : ∀ a b, R.may a b → b.config = a.config)
    (hkeep : ∀ a b, R.may a b → ∀ c ∈ s.conversations, c.KnownIn a.peers → c.KnownIn b.peers)
    (hlimit : 0 < a.config.dialogsPage) (hrun : Run R run a t (.done ()) b)
    (hhonest : ∀ e ∈ t, s.Honest e) :
    (s.PagesApart a.config.dialogsPage.toInt.toNat → ∀ c ∈ s.conversations, c.KnownIn b.peers) ∧
    ((∀ a b, R.may a b → ∀ c ∈ s.conversations, c.KnownIn b.peers → c.KnownIn a.peers) →
      (s.conversations.Pairwise fun c d => c.user.id ≠ d.user.id) →
      (∀ c ∈ s.conversations, ¬ c.KnownIn a.peers) →
      (∀ c ∈ s.conversations, c.KnownIn b.peers) → s.PagesApart a.config.dialogsPage.toInt.toNat) := by
  have hpos : 0 < a.config.dialogsPage.toInt.toNat := by
    rw [Int32.lt_iff_toInt_lt] at hlimit
    exact Int.lt_toNat.2 hlimit
  have hallows : Environment.Allows (fun _ e => s.Honest e) [] t :=
    Environment.allows_of_forall_mem fun e he _ => hhonest e he
  constructor
  · intro hapart
    exact (safe_knownIn hconfig hkeep rfl hpos hapart _ _ _ hrun hallows).2 () rfl
  · intro hteach hdistinct hfresh hknown k
    -- the first end of a page at which the dates do not differ
    induction k using Nat.strongRecOn with
    | ind k ih =>
      intro hk c d hc hd hdate
      have hmem := List.mem_of_getElem? hd
      refine (safe_not_knownIn hconfig (fun a b hab hd hb => hd (hteach a b hab d hmem hb)) rfl hpos
        hdistinct ih hc hd hk hdate (hfresh d hmem) _ _ _ hrun hallows).2 () rfl ?_
      exact hknown d hmem

/-! ## Two conversations on pages of one -/

/-- A server with two conversations. -/
def twoConversations (newer older : Int32) (hle : older ≤ newer) (hpos : 0 < older) : DialogServer where
  conversations := [⟨newer, { id := 5, accessHash := some 50 }, 50, rfl⟩,
    ⟨older, { id := 6, accessHash := some 60 }, 60, rfl⟩]
  newestFirst := by simpa using hle
  positive := by simpa using ⟨Int32.lt_of_lt_of_le hpos hle, hpos⟩
  oneHash := by simp

/-- The slice that shows some conversations. -/
def sliceOf (page : List Conversation) : DialogList :=
  { dialogs := [], messages := page.map fun c => .service false 1 (.user c.user.id) c.date,
    chats := [], users := page.map fun c => .user c.user }

/-- The answer of an honest server. -/
def answerFor (s : DialogServer) (query : DialogQuery) : Event :=
  .answered (.call (.getDialogs query)) (.ok ⟨.dialogs, .slice 2 (sliceOf (s.page query))⟩)

theorem honest_answerFor (s : DialogServer) (query : DialogQuery) : s.Honest (answerFor s query) where
  reply := by
    rintro query' reply h
    cases h
    exact ⟨2, _, rfl, by simp [sliceOf, Function.comp_def, MessageEntry.date?], rfl⟩
  error := by
    rintro request error h
    cases h
  pause := by
    rintro ms how h
    cases h

/-- The account that reads pages of one dialog. -/
def reader : Account := { config := { dialogsPage := 1 }, profile := 0 }

/-- The account after a page. -/
def afterPage (s : DialogServer) (offset : Int32) (a : Account) : Account :=
  { a with peers := a.peers.apply (sliceOf (s.page { offsetDate := offset, limit := 1 })).users [] }

/-- A page is one turn of the reading. -/
theorem run_turn_page (limit offset : Int32) (page : DialogPage) (a : Account) :
    Run R (turn limit offset) a
      [.answered (.call (.getDialogs { offsetDate := offset, limit })) (.ok ⟨.dialogs, page⟩)]
      (.done (match nextOffset? limit page with
        | some next => .inl next
        | none => .inr ()))
      (Pipeline.learn (.getDialogs { offsetDate := offset, limit }) (.ok ⟨.dialogs, page⟩) a) := by
  have hcall : Run R (Pipeline.call (.getDialogs { offsetDate := offset, limit })) a
      [.answered (.call (.getDialogs { offsetDate := offset, limit })) (.ok ⟨.dialogs, page⟩)]
      (.done (.ok page))
      (Pipeline.learn (.getDialogs { offsetDate := offset, limit }) (.ok ⟨.dialogs, page⟩) a) :=
    Run.of_call a rfl
  refine Run.bind_iff.2 ⟨_, _, [], _, (List.append_nil _).symm, hcall, ?_⟩
  cases hnext : nextOffset? limit page <;> simp only [hnext] <;> exact .refl _ _

/-- The answer of an honest server is one turn of the reading. -/
theorem run_turn (s : DialogServer) (offset : Int32) (a : Account) :
    Run Others.nobody (turn 1 offset) a [answerFor s { offsetDate := offset, limit := 1 }]
      (.done (match nextOffset? 1 (.slice 2 (sliceOf (s.page { offsetDate := offset, limit := 1 }))) with
        | some next => .inl next
        | none => .inr ()))
      (afterPage s offset a) :=
  run_turn_page 1 offset _ a

/-- The server on which both conversations have the same date. -/
def tied : DialogServer := twoConversations 1700000000 1700000000 (by decide) (by decide)

theorem run_tied :
    Run Others.nobody run reader
      [answerFor tied { offsetDate := 0, limit := 1 },
        answerFor tied { offsetDate := 1700000000, limit := 1 }] (.done ())
      (afterPage tied 1700000000 (afterPage tied 0 reader)) := by
  refine Run.read_bind_iff.2 ⟨reader, rfl, ?_⟩
  exact (run_turn tied 0 reader).iterate_turn (run_turn tied 1700000000 _).iterate_done

/-- Of two conversations with the same date the second is passed over, when a page has room for one. -/
theorem tied_conversation_passed_over :
    ¬ ∀ (s : DialogServer) (a b : Account) (t : List Event), 0 < a.config.dialogsPage →
      Run Others.nobody run a t (.done ()) b → (∀ e ∈ t, s.Honest e) →
      ∀ c ∈ s.conversations, c.KnownIn b.peers := by
  intro h
  have hhonest : ∀ e ∈ [answerFor tied { offsetDate := 0, limit := 1 },
      answerFor tied { offsetDate := 1700000000, limit := 1 }], tied.Honest e := by
    simp [honest_answerFor]
  have hknown := h tied reader _ _ (by decide) run_tied hhonest _
    (List.mem_cons_of_mem _ List.mem_cons_self)
  exact absurd hknown (by unfold Conversation.KnownIn; decide)

/-- The server on which one conversation is newer than the other. -/
def apart : DialogServer := twoConversations 1700000100 1700000000 (by decide) (by decide)

theorem run_apart :
    Run Others.nobody run reader
      [answerFor apart { offsetDate := 0, limit := 1 },
        answerFor apart { offsetDate := 1700000100, limit := 1 },
        answerFor apart { offsetDate := 1700000000, limit := 1 }] (.done ())
      (afterPage apart 1700000000 (afterPage apart 1700000100 (afterPage apart 0 reader))) := by
  refine Run.read_bind_iff.2 ⟨reader, rfl, ?_⟩
  exact (run_turn apart 0 reader).iterate_turn
    ((run_turn apart 1700000100 _).iterate_turn (run_turn apart 1700000000 _).iterate_done)

theorem pagesApart_apart : apart.PagesApart 1 := by
  intro k hk c d hc hd
  match k with
  | 1 =>
    cases hc
    cases hd
    decide
  | k + 2 => cases hd

theorem run_knows_pagesApart_twoDates :
    let events := [answerFor apart { offsetDate := 0, limit := 1 },
      answerFor apart { offsetDate := 1700000100, limit := 1 },
      answerFor apart { offsetDate := 1700000000, limit := 1 }]
    let last := afterPage apart 1700000000 (afterPage apart 1700000100 (afterPage apart 0 reader))
    (∀ a b, Others.nobody.may a b → b.config = a.config) ∧
    (∀ a b, Others.nobody.may a b → ∀ c ∈ apart.conversations, c.KnownIn a.peers → c.KnownIn b.peers) ∧
    0 < reader.config.dialogsPage ∧ Run Others.nobody run reader events (.done ()) last ∧
    (∀ e ∈ events, apart.Honest e) ∧ (∀ c ∈ apart.conversations, c.KnownIn last.peers) ∧
    apart.PagesApart 1 := by
  intro events last
  have hhonest : ∀ e ∈ events, apart.Honest e := by simp [events, honest_answerFor]
  have hconfig : ∀ a b, Others.nobody.may a b → b.config = a.config := by
    rintro a _ rfl
    rfl
  have hkeep : ∀ a b, Others.nobody.may a b →
      ∀ c ∈ apart.conversations, c.KnownIn a.peers → c.KnownIn b.peers := by
    rintro a _ rfl c _ hc
    exact hc
  have hteach : ∀ a b, Others.nobody.may a b →
      ∀ c ∈ apart.conversations, c.KnownIn b.peers → c.KnownIn a.peers := by
    rintro a _ rfl c _ hc
    exact hc
  obtain ⟨hreached, hends⟩ := run_knows_pagesApart hconfig hkeep (by decide) run_apart hhonest
  have hknown := hreached pagesApart_apart
  refine ⟨hconfig, hkeep, by decide, run_apart, hhonest, hknown, hends hteach ?_ ?_ hknown⟩
  · simp [apart, twoConversations]
  · rintro c - hc
    cases hc

end Telebridge.DialogSync
