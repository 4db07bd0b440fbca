import Telebridge.Proofs.Url.Authority
set_option autoImplicit false

/-! # Web addresses are read back

The text of a web address leads where the address does: to the same scheme, host and port
(`Written.origin?_text`). What stands after the authority makes no difference. -/

namespace Telebridge.Url

/-! ## Input -/

theorem dropWhile_blanks {cs : List Char} (h : ∀ c ∈ cs.head?, 0x20 < c.toNat) :
    cs.dropWhile (fun c => c.toNat ≤ 0x20) = cs := by
  cases cs with
  | nil => rfl
  | cons c cs => exact List.dropWhile_cons_of_neg (by simpa using h c rfl)

theorem filter_breaks {cs : List Char} (h : ∀ c ∈ cs, 0x20 < c.toNat) :
    cs.filter (fun c => !(c = '\t' || c = '\n' || c = '\r')) = cs := by
  refine List.filter_eq_self.2 fun c hc => ?_
  have hne : ∀ d : Char, d.toNat ≤ 0x20 → c ≠ d := by
    rintro d hd rfl
    exact absurd hd (Nat.not_le.2 (h c hc))
  simp [hne '\t' (by decide), hne '\n' (by decide), hne '\r' (by decide)]

/-- Nothing is removed from the front of an input without blanks and control characters there. -/
theorem cleanInput_append {front : List Char} (hne : front ≠ []) (h : ∀ c ∈ front, 0x20 < c.toNat)
    (tail : List Char) : ∃ rest, cleanInput (String.ofList (front ++ tail)) = front ++ rest := by
  let kept := (tail.reverse.dropWhile fun c => c.toNat ≤ 0x20).reverse
  have hfront : (front ++ tail).dropWhile (fun c => c.toNat ≤ 0x20) = front ++ tail := by
    obtain ⟨c, cs, rfl⟩ := List.exists_cons_of_ne_nil hne
    exact dropWhile_blanks fun d hd => Option.some.inj hd ▸ h c List.mem_cons_self
  -- what is dropped at the back is the end of the tail at most
  have hback : ((front ++ tail).reverse.dropWhile fun c => c.toNat ≤ 0x20).reverse = front ++ kept := by
    rw [List.reverse_append, List.dropWhile_append]
    split
    · next hempty =>
      have hkept : kept = [] := by
        show List.reverse _ = []
        rw [List.isEmpty_iff.1 hempty, List.reverse_nil]
      rw [dropWhile_blanks fun c hc => h c (List.mem_reverse.1 (List.mem_of_mem_head? hc)),
        List.reverse_reverse, hkept, List.append_nil]
    · rw [List.reverse_append, List.reverse_reverse]
  refine ⟨kept.filter fun c => !(c = '\t' || c = '\n' || c = '\r'), ?_⟩
  simp only [cleanInput, String.toList_ofList, hfront, hback, List.filter_append, filter_breaks h]

/-- The scheme of a web address is read up to its colon. -/
theorem scheme?_of_web {scheme : String} (hweb : IsWebScheme scheme) (rest : List Char) :
    scheme? (scheme.toList ++ ':' :: rest) = some (scheme, rest) := by
  rcases hweb with rfl | rfl <;> rfl

/-- What has no separator stays in the first part. -/
theorem splitFirst_append_left {sep : Char} {front : List Char} (h : sep ∉ front) (tail : List Char) :
    splitFirst sep (front ++ tail) = (front ++ (splitFirst sep tail).1, (splitFirst sep tail).2) := by
  have hdrop : (front ++ tail).dropWhile (· != sep) = tail.dropWhile (· != sep) :=
    List.dropWhile_append_of_pos (bne_of_notMem h)
  have htake : (front ++ tail).takeWhile (· != sep) = front ++ tail.takeWhile (· != sep) :=
    List.takeWhile_append_of_pos (bne_of_notMem h)
  rw [splitFirst, splitFirst, hdrop, htake]
  cases tail.dropWhile (· != sep) <;> rfl

theorem splitTail_append {front : List Char} (h : ∀ c ∈ front, c ≠ '?' ∧ c ≠ '#') (tail : List Char) :
    (splitTail (front ++ tail)).1 = front ++ (splitTail tail).1 := by
  have hquery : '?' ∉ front := fun hmem => (h _ hmem).1 rfl
  have hfragment : '#' ∉ front := fun hmem => (h _ hmem).2 rfl
  simp only [splitTail, splitFirst_append_left hfragment, splitFirst_append_left hquery]

/-! ## Whole addresses -/

/-- A web address as it is written. -/
structure Written [DomainMapping] (u : Url) : Prop where
  web : IsWebScheme u.scheme
  authority : ∃ a, u.authority = some a ∧ a.Written u.scheme
  path : ∃ segments, u.path = .segments segments ∧ segments ≠ []

/-- Where an address leads to. -/
structure Origin where
  scheme : String
  host : String
  port : Option Nat
deriving DecidableEq

/-- Where the addresses of an authority lead to. -/
def Authority.origin (scheme : String) (a : Authority) : Origin :=
  ⟨scheme, a.host, a.port⟩

/-- Where an address leads to, if it has an authority. -/
def origin? (u : Url) : Option Origin :=
  u.authority.map (Authority.origin u.scheme)

/-- Where a link leads to, if it is an absolute address with an authority. -/
def linkOrigin? [DomainMapping] (link : String) : Option Origin :=
  (ofString? link).bind origin?

theorem addSegments_ne_nil {path : List String} {parts : List (List Char)} (h : parts ≠ []) :
    addSegments path parts ≠ [] := by
  induction parts generalizing path with
  | nil => exact absurd rfl h
  | cons part parts ih =>
    rw [addSegments]
    cases parts with
    | nil =>
      split
      · simp [addSegments]
      split
      · simp [addSegments]
      · simp [addSegments]
    | cons next parts =>
      split
      · exact ih (List.cons_ne_nil _ _)
      split
      · exact ih (List.cons_ne_nil _ _)
      · exact ih (List.cons_ne_nil _ _)

theorem splitSlashes_ne_nil (special : Bool) (cs : List Char) : splitSlashes special cs ≠ [] := by
  cases cs with
  | nil => exact List.cons_ne_nil _ _
  | cons c cs =>
    rw [splitSlashes]
    split
    · exact List.cons_ne_nil _ _
    split
    · exact List.cons_ne_nil _ _
    · exact List.cons_ne_nil _ _

theorem Written.withPath [DomainMapping] {u : Url} (h : u.Written) (basePath : List String)
    (path : List Char) (query fragment : Option (List Char)) :
    (withPath u basePath path query fragment).Written :=
  ⟨h.web, h.authority, _, rfl, addSegments_ne_nil (splitSlashes_ne_nil _ _)⟩

/-- Another path does not change where an address leads to. -/
theorem origin?_withPath (u : Url) (basePath : List String) (path : List Char)
    (query fragment : Option (List Char)) :
    (Url.withPath u basePath path query fragment).origin? = u.origin? := rfl

theorem scheme_afterAuthority (scheme : String) (a : Authority) (path : List Char)
    (query fragment : Option (List Char)) :
    (afterAuthority scheme a path query fragment).scheme = scheme := by
  cases path <;> rfl

theorem origin?_afterAuthority (scheme : String) (a : Authority) (path : List Char)
    (query fragment : Option (List Char)) :
    (afterAuthority scheme a path query fragment).origin? = some (a.origin scheme) := by
  cases path <;> rfl

theorem written_afterAuthority [DomainMapping] {scheme : String} (hweb : IsWebScheme scheme)
    {a : Authority} (ha : a.Written scheme) (path : List Char) (query fragment : Option (List Char)) :
    (afterAuthority scheme a path query fragment).Written := by
  cases path with
  | nil =>
    refine ⟨hweb, ⟨a, rfl, ha⟩, [""], ?_, List.cons_ne_nil _ _⟩
    simp only [afterAuthority, hweb.isSpecial, if_true]
  | cons c path =>
    exact ⟨hweb, ⟨a, rfl, ha⟩, _, rfl, addSegments_ne_nil (splitSlashes_ne_nil _ _)⟩

/-- What names the authority in the input after the slashes. -/
def authorityText (cs : List Char) : List Char :=
  (splitTail cs).1.takeWhile fun c => !isSlash true c

theorem authorityText_append {front : List Char} (h : ∀ c ∈ front, IsAuthorityChar c)
    (tail : List Char) : authorityText (front ++ '/' :: tail) = front := by
  have hslash : ∀ c ∈ front, (!isSlash true c) = true := by
    intro c hc
    rw [(h c hc).2.1]
    rfl
  have htail : (splitTail (front ++ ['/'] ++ tail)).1 = front ++ ['/'] ++ (splitTail tail).1 := by
    refine splitTail_append (fun c hc => ?_) tail
    rcases List.mem_append.1 hc with hc | hc
    · exact (h c hc).2.2
    · obtain rfl := List.mem_singleton.1 hc
      decide
  rw [List.append_assoc, List.append_assoc, List.singleton_append, List.singleton_append] at htail
  rw [authorityText, htail, List.takeWhile_append_of_pos hslash, List.takeWhile_cons_of_neg (by decide),
    List.append_nil]

/-- An address with an authority is read if the authority is. -/
theorem ofAuthority?_eq [DomainMapping] {scheme : String} (hspecial : isSpecial scheme = true)
    (cs : List Char) :
    ofAuthority? scheme cs = (authority? scheme (authorityText cs)).map fun a =>
      afterAuthority scheme a ((splitTail cs).1.dropWhile fun c => !isSlash true c)
        (splitTail cs).2.1 (splitTail cs).2.2 := by
  rw [Option.map_eq_bind]
  simp only [ofAuthority?, hspecial]
  rfl

/-- It leads where the authority says. -/
theorem origin?_ofAuthority? [DomainMapping] {scheme : String} (hspecial : isSpecial scheme = true)
    (cs : List Char) :
    (ofAuthority? scheme cs).bind origin? =
      (authority? scheme (authorityText cs)).map (Authority.origin scheme) := by
  rw [ofAuthority?_eq hspecial]
  cases authority? scheme (authorityText cs) with
  | none => rfl
  | some a => exact origin?_afterAuthority scheme a _ _ _

theorem written_of_ofAuthority? [DomainMapping] [LawfulDomainMapping] {scheme : String}
    {cs : List Char} {u : Url} (hweb : IsWebScheme scheme) (h : ofAuthority? scheme cs = some u) : u.Written := by
  rw [ofAuthority?_eq hweb.isSpecial] at h
  obtain ⟨a, ha, rfl⟩ := Option.map_eq_some_iff.1 h
  exact written_afterAuthority hweb (written_of_authority? hweb ha) _ _ _

theorem ofScheme?_of_web [DomainMapping] {scheme : String} (hweb : IsWebScheme scheme) (cs : List Char) :
    ofScheme? scheme cs = ofAuthority? scheme (cs.dropWhile (isSlash true)) := by
  have hspecial := hweb.isSpecial
  unfold ofScheme?
  rw [if_neg hweb.ne_file]
  simp only [hspecial, if_true]

/-- A written authority is read after the two slashes. -/
theorem linkOrigin?_of_web [DomainMapping] [LawfulDomainMapping] {scheme : String}
    (hweb : IsWebScheme scheme) {a : Authority} (ha : a.Written scheme) (tail : List Char) :
    linkOrigin? (String.ofList
      ((scheme.toList ++ ':' :: '/' :: '/' :: (a.text.toList ++ ['/'])) ++ tail)) =
      some (a.origin scheme) := by
  have hvisible : ∀ c ∈ scheme.toList ++ ':' :: '/' :: '/' :: (a.text.toList ++ ['/']),
      0x20 < c.toNat := by
    have hall : (scheme.toList.all fun c => 0x20 < c.toNat) = true := by
      rcases hweb with rfl | rfl <;> decide
    have hscheme : ∀ c ∈ scheme.toList, 0x20 < c.toNat := fun c hc =>
      of_decide_eq_true (List.all_eq_true.1 hall c hc)
    simp only [List.mem_append, List.mem_cons, List.not_mem_nil, or_false]
    rintro c (hc | rfl | rfl | rfl | hc | rfl)
    · exact hscheme c hc
    · decide
    · decide
    · decide
    · exact (ha.chars c hc).1
    · decide
  obtain ⟨rest, hclean⟩ := cleanInput_append (by simp) hvisible tail
  have hslashes : ('/' :: '/' :: (a.text.toList ++ '/' :: rest)).dropWhile (isSlash true) =
      a.text.toList ++ '/' :: rest := by
    obtain ⟨c, cs, htext⟩ := List.exists_cons_of_ne_nil ha.text_ne_nil
    have hc : isSlash true c = false := (ha.chars c (htext ▸ List.mem_cons_self)).2.1
    rw [htext, List.dropWhile_cons_of_pos (by decide), List.dropWhile_cons_of_pos (by decide),
      List.cons_append, List.dropWhile_cons_of_neg (by rw [hc]; decide)]
  obtain ⟨b, hb, hhost, hport⟩ := ha.read hweb
  have horigin : b.origin scheme = a.origin scheme := by
    rw [Authority.origin, hhost, hport, Authority.origin]
  rw [linkOrigin?, ofString?, hclean]
  simp only [List.append_assoc, List.cons_append, List.nil_append]
  rw [scheme?_of_web hweb]
  show (ofScheme? scheme _).bind origin? = _
  rw [ofScheme?_of_web hweb, hslashes, origin?_ofAuthority? hweb.isSpecial,
    authorityText_append ha.chars, hb, Option.map_some, horigin]

/-- A path with segments starts with a slash. -/
theorem exists_text_segments {segments : List String} (h : segments ≠ []) :
    ∃ rest, (Path.segments segments).text = "/" ++ rest := by
  obtain ⟨segment, segments, rfl⟩ := List.exists_cons_of_ne_nil h
  refine ⟨segment ++ String.join (segments.map fun s => "/" ++ s), ?_⟩
  rw [Path.text, List.map_cons, String.join_cons, String.append_assoc]

/-- The text of an address up to the path, and what comes after it. -/
theorem exists_text_eq {u : Url} {a : Authority} (h : u.authority = some a) :
    ∃ rest, u.text = u.scheme ++ ":" ++ ("//" ++ a.text) ++ u.path.text ++ rest := by
  simp only [text, h]
  exact ⟨_, String.append_assoc⟩

/-- The text of a web address leads where the address does. -/
theorem Written.origin?_text [DomainMapping] [LawfulDomainMapping] {u : Url} (h : u.Written) :
    linkOrigin? u.text = u.origin? := by
  obtain ⟨a, hauthority, ha⟩ := h.authority
  obtain ⟨segments, hpath, hne⟩ := h.path
  obtain ⟨path, hslash⟩ := exists_text_segments hne
  obtain ⟨rest, htext⟩ := exists_text_eq hauthority
  have hlist : u.text = String.ofList
      ((u.scheme.toList ++ ':' :: '/' :: '/' :: (a.text.toList ++ ['/'])) ++ (path ++ rest).toList) := by
    rw [htext, hpath, hslash, ← String.toList_inj]
    simp
  rw [hlist, linkOrigin?_of_web h.web ha, origin?, hauthority]
  rfl

theorem scheme_of_ofAuthority? [DomainMapping] {scheme : String} {cs : List Char} {u : Url}
    (h : ofAuthority? scheme cs = some u) : u.scheme = scheme := by
  obtain ⟨a, -, h⟩ := Option.bind_eq_some_iff.1 h
  cases h
  exact scheme_afterAuthority _ _ _ _ _

theorem scheme_of_ofRelative? [DomainMapping] {base u : Url} {segments : List String}
    {cs : List Char} (h : ofRelative? base segments cs = some u) : u.scheme = base.scheme := by
  unfold ofRelative? at h
  dsimp only at h
  split at h
  · exact scheme_of_ofAuthority? h
  split at h
  · cases h
    rfl
  · split at h <;>
    · cases h
      rfl

theorem scheme_of_ofScheme? [DomainMapping] {scheme : String} {cs : List Char} {u : Url}
    (h : ofScheme? scheme cs = some u) : u.scheme = scheme := by
  unfold ofScheme? at h
  split at h
  · split at h
    · split at h
      · exact scheme_of_ofAuthority? h
      · exact scheme_of_ofRelative? h
    · exact scheme_of_ofRelative? h
  split at h
  · exact scheme_of_ofAuthority? h
  split at h
  · exact scheme_of_ofAuthority? h
  · cases h
    rfl
  · cases h
    rfl

/-- A web address that is read is in written form. -/
theorem written_of_ofString? [DomainMapping] [LawfulDomainMapping] {text : String} {u : Url}
    (h : ofString? text = some u) (hweb : u.isWeb = true) : u.Written := by
  obtain ⟨⟨scheme, rest⟩, -, h⟩ := Option.bind_eq_some_iff.1 h
  have h : ofScheme? scheme rest = some u := h
  have hscheme : u.scheme = scheme := scheme_of_ofScheme? h
  have hweb : IsWebScheme scheme := by
    rw [isWeb, hscheme] at hweb
    simpa [IsWebScheme] using hweb
  rw [ofScheme?_of_web hweb] at h
  exact written_of_ofAuthority? hweb h

end Telebridge.Url
