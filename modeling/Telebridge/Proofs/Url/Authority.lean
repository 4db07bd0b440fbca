import Telebridge.Proofs.Url.Host
import Telebridge.Url.Reader
set_option autoImplicit false

/-! # Authorities are read back

The authority of a web address is read back with its host and port (`Authority.Written.read`). It is
written in characters that end nowhere before the path (`IsAuthorityChar`). -/

namespace Telebridge.Url

/-! ## Separators -/

section Separators

variable {sep : Char} {before after : List Char}

theorem bne_of_notMem {cs : List Char} (h : sep ∉ cs) : ∀ c ∈ cs, (c != sep) = true :=
  fun _ hc => bne_iff_ne.2 fun heq => h (heq ▸ hc)

theorem dropWhile_of_notMem {cs : List Char} (h : sep ∉ cs) : cs.dropWhile (· != sep) = [] := by
  rw [← List.append_nil cs, List.dropWhile_append_of_pos (bne_of_notMem h), List.dropWhile_nil]

theorem dropWhile_append (h : sep ∉ before) :
    (before ++ sep :: after).dropWhile (· != sep) = sep :: after := by
  rw [List.dropWhile_append_of_pos (bne_of_notMem h), List.dropWhile_cons_of_neg (by simp)]

theorem takeWhile_append (h : sep ∉ before) :
    (before ++ sep :: after).takeWhile (· != sep) = before := by
  rw [List.takeWhile_append_of_pos (bne_of_notMem h), List.takeWhile_cons_of_neg (by simp),
    List.append_nil]

theorem splitFirst_of_notMem {cs : List Char} (h : sep ∉ cs) : splitFirst sep cs = (cs, none) := by
  rw [splitFirst, dropWhile_of_notMem h]

theorem splitFirst_append (h : sep ∉ before) :
    splitFirst sep (before ++ sep :: after) = (before, some after) := by
  rw [splitFirst, dropWhile_append h, takeWhile_append h]

theorem splitLast?_of_notMem {cs : List Char} (h : sep ∉ cs) : splitLast? sep cs = none := by
  rw [splitLast?, dropWhile_of_notMem fun hmem => h (List.mem_reverse.1 hmem)]

theorem splitLast?_append (h : sep ∉ after) :
    splitLast? sep (before ++ sep :: after) = some (before, after) := by
  have hreverse : (before ++ sep :: after).reverse = after.reverse ++ sep :: before.reverse := by
    simp
  have hafter : sep ∉ after.reverse := fun hmem => h (List.mem_reverse.1 hmem)
  rw [splitLast?, hreverse, dropWhile_append hafter, takeWhile_append hafter]
  simp

end Separators

/-! ## Hosts and ports -/

/-- A character that does not end an authority and is not removed from the input. -/
def IsAuthorityChar (c : Char) : Prop :=
  0x20 < c.toNat ∧ isSlash true c = false ∧ c ≠ '?' ∧ c ≠ '#'

instance (c : Char) : Decidable (IsAuthorityChar c) :=
  inferInstanceAs (Decidable (_ ∧ _ ∧ _ ∧ _))

theorem isAuthorityChar_digitChar {d : Nat} (h : d < 16) :
    IsAuthorityChar d.digitChar ∧ d.digitChar ≠ '@' := by
  have hall : ∀ d < 16, IsAuthorityChar d.digitChar ∧ d.digitChar ≠ '@' := by decide
  exact hall d h

theorem IsDomainChar.isAuthorityChar {c : Char} (h : IsDomainChar c) : IsAuthorityChar c := by
  refine ⟨?_, ?_, h.ne (by decide), h.ne (by decide)⟩
  · have hspace := h.ne (d := ' ') (by decide)
    have hforbidden := h.2
    simp only [isForbiddenInDomain, Bool.or_eq_false_iff, decide_eq_false_iff_not] at hforbidden
    have hne : c.toNat ≠ 0x20 := fun heq => hspace (Char.toNat_inj.1 heq)
    omega
  · have hslash := h.ne (d := '/') (by decide)
    have hbackslash := h.ne (d := '\\') (by decide)
    simp [isSlash, hslash, hbackslash]

/-- An IPv6 address is written in digits and punctuation. -/
theorem mem_ipv6Text {pieces : List Nat} {c : Char} (h : c ∈ ipv6Text pieces) :
    c ∈ ['[', ']', ':'] ∨ ∃ d < 16, c = d.digitChar := by
  have hpieces (qs : List Nat) (hc : c ∈ piecesText qs) :
      c ∈ ['[', ']', ':'] ∨ ∃ d < 16, c = d.digitChar := by
    rcases mem_piecesText hc with rfl | ⟨p, hp⟩
    · exact .inl (by decide)
    · exact .inr (mem_toDigits (by decide) hp)
  rw [ipv6Text_eq, List.mem_cons, List.mem_append, List.mem_singleton] at h
  rcases h with rfl | h | rfl
  · exact .inl (by decide)
  · unfold insideText at h
    split at h
    split at h
    · exact hpieces _ h
    · rw [List.mem_append, List.mem_append] at h
      rcases h with (h | h) | h
      · exact hpieces _ h
      · exact .inl (by simp at h; simp [h])
      · exact hpieces _ h
  · exact .inl (by decide)

theorem WrittenHost.chars [DomainMapping] {host : List Char} (h : WrittenHost host) :
    ∀ c ∈ host, IsAuthorityChar c ∧ c ≠ '@' := by
  intro c hc
  cases h with
  | domain hne hchars hwritten hnumber =>
    exact ⟨(hchars c hc).isAuthorityChar, (hchars c hc).ne (by decide)⟩
  | ipv4 n =>
    have hchar := isDomainChar_of_mem_ipv4Text hc
    exact ⟨hchar.isAuthorityChar, hchar.ne (by decide)⟩
  | ipv6 hlength hpieces =>
    rcases mem_ipv6Text hc with hc | ⟨d, hd, rfl⟩
    · simp only [List.mem_cons, List.not_mem_nil, or_false] at hc
      rcases hc with rfl | rfl | rfl <;> decide
    · exact isAuthorityChar_digitChar hd

theorem WrittenHost.ne_nil [DomainMapping] {host : List Char} (h : WrittenHost host) : host ≠ [] := by
  cases h with
  | domain hne hchars hwritten hnumber => exact hne
  | ipv4 n => exact ipv4Text_ne_nil n
  | ipv6 hlength hpieces => exact List.cons_ne_nil _ _

/-- The port after a host, with its colon. -/
def portText : Option Nat → List Char
  | some n => ':' :: Text.natDigits n
  | none => []

theorem mem_portText {port : Option Nat} {c : Char} (h : c ∈ portText port) :
    c = ':' ∨ ∃ d < 16, c = d.digitChar := by
  cases port with
  | none => cases h
  | some n =>
    rcases List.mem_cons.1 h with rfl | h
    · exact .inl rfl
    · obtain ⟨d, hd, rfl⟩ := mem_toDigits (by decide) h
      exact .inr ⟨d, by omega, rfl⟩

theorem notMem_portText (port : Option Nat) : ']' ∉ portText port := by
  intro h
  rcases mem_portText h with h | ⟨d, hd, h⟩
  · exact absurd h (by decide)
  · have hall : ∀ d < 16, ']' ≠ d.digitChar := by decide
    exact hall d hd h

/-- The port is split off a host without colons and brackets. -/
theorem splitPort_of_chars {host : List Char} (h : ∀ c ∈ host, IsDomainChar c) (port : Option Nat) :
    splitPort (host ++ portText port) = (host, port.map Text.natDigits) := by
  have hbracket : ']' ∉ host ++ portText port := fun hmem =>
    (List.mem_append.1 hmem).elim (fun hmem => (h _ hmem).ne (by decide) rfl) (notMem_portText port)
  have hcolon : ':' ∉ host := fun hmem => (h _ hmem).ne (by decide) rfl
  rw [splitPort, splitLast?_of_notMem hbracket]
  cases port with
  | none =>
    rw [portText, List.append_nil]
    exact splitFirst_of_notMem hcolon
  | some n => exact splitFirst_append hcolon

theorem WrittenHost.splitPort [DomainMapping] {host : List Char} (h : WrittenHost host)
    (port : Option Nat) :
    splitPort (host ++ portText port) = (host, port.map Text.natDigits) := by
  cases h with
  | domain hne hchars hwritten hnumber => exact splitPort_of_chars hchars port
  | ipv4 n => exact splitPort_of_chars (fun c hc => isDomainChar_of_mem_ipv4Text hc) port
  | @ipv6 pieces hlength hpieces =>
    have hsplit : ipv6Text pieces ++ portText port =
        ('[' :: insideText pieces) ++ ']' :: portText port := by
      rw [ipv6Text_eq, List.cons_append, List.cons_append, List.append_assoc]
      rfl
    rw [hsplit, Url.splitPort, splitLast?_append (notMem_portText port)]
    cases port with
    | none => rfl
    | some n => rfl

/-! ## Authorities -/

/-- The schemes of web addresses. -/
def IsWebScheme (scheme : String) : Prop :=
  scheme = "http" ∨ scheme = "https"

theorem IsWebScheme.isSpecial {scheme : String} (h : IsWebScheme scheme) : isSpecial scheme = true := by
  rcases h with rfl | rfl <;> decide

theorem IsWebScheme.ne_file {scheme : String} (h : IsWebScheme scheme) : scheme ≠ "file" := by
  rcases h with rfl | rfl <;> decide

/-- An authority as it is written under a scheme. -/
structure Authority.Written [DomainMapping] (scheme : String) (a : Authority) : Prop where
  username : ∀ c ∈ a.username.toList, IsAuthorityChar c
  password : ∀ c ∈ a.password.toList, IsAuthorityChar c
  host : WrittenHost a.host.toList
  port : ∀ n, a.port = some n → n ≤ 65535 ∧ defaultPort? scheme ≠ some n

theorem isAuthorityChar_of_mem_percentByte {b : UInt8} {c : Char} (h : c ∈ percentByte b) :
    IsAuthorityChar c := by
  have hall : ∀ d < 16, IsAuthorityChar (Nat.digitChar d).toUpper := by decide
  simp only [percentByte, upperHex, List.mem_cons, List.not_mem_nil, or_false] at h
  rcases h with rfl | rfl | rfl
  · decide
  · exact hall _ (Nat.mod_lt _ (by decide))
  · exact hall _ (Nat.mod_lt _ (by decide))

theorem isAuthorityChar_of_notMem_userinfoSet {c : Char} (h : inUserinfoSet c = false) :
    IsAuthorityChar c := by
  have hne : ∀ d : Char, inUserinfoSet d = true → c ≠ d := by
    rintro d hd rfl
    exact absurd (hd.symm.trans h) (by decide)
  have hspace : c.toNat ≠ 0x20 := fun heq => hne ' ' (by decide) (Char.toNat_inj.1 heq)
  have hcontrol : ¬ c.toNat < 0x20 := by
    intro hlow
    have hset : inControlSet c = true := by simp [inControlSet, hlow]
    simp [inUserinfoSet, inPathSet, inQuerySet, hset] at h
  refine ⟨by omega, ?_, hne '?' (by decide), hne '#' (by decide)⟩
  simp [isSlash, hne '/' (by decide), hne '\\' (by decide)]

/-- Credentials are written in characters that end nowhere before the path. -/
theorem isAuthorityChar_of_mem_percentEncode {s : List Char} {c : Char}
    (h : c ∈ percentEncode inUserinfoSet s) : IsAuthorityChar c := by
  obtain ⟨d, -, hc⟩ := List.mem_flatMap.1 h
  split at hc
  · obtain ⟨b, -, hb⟩ := List.mem_flatMap.1 hc
    exact isAuthorityChar_of_mem_percentByte hb
  · next hset =>
    obtain rfl := List.mem_singleton.1 hc
    exact isAuthorityChar_of_notMem_userinfoSet (Bool.eq_false_iff.2 hset)

theorem port?_bounds {scheme : String} {text : Option (List Char)} {port : Option Nat}
    (h : port? scheme text = some port) :
    ∀ n, port = some n → n ≤ 65535 ∧ defaultPort? scheme ≠ some n := by
  rintro n rfl
  unfold port? at h
  split at h
  · cases h
  · cases h
  · obtain ⟨m, -, h⟩ := Option.bind_eq_some_iff.1 h
    simp only [Option.bind_eq_bind, Option.bind_none] at h
    split at h
    · cases h
    · next hm =>
      split at h
      · cases h
      · next hdefault =>
        cases h
        exact ⟨by omega, hdefault⟩

/-- A port is read back. -/
theorem port?_natDigits {scheme : String} {port : Option Nat}
    (h : ∀ n, port = some n → n ≤ 65535 ∧ defaultPort? scheme ≠ some n) :
    port? scheme (port.map Text.natDigits) = some port := by
  cases port with
  | none => rfl
  | some n =>
    obtain ⟨hle, hdefault⟩ := h n rfl
    rw [Option.map_some, port?]
    · rw [Text.readNat?_natDigits]
      simp only [Option.bind_eq_bind, Option.bind_some]
      rw [if_neg (by omega), if_neg hdefault]
    · exact Text.natDigits_ne_nil n

/-- What stands before the last at sign. -/
def credentials (cs : List Char) : List Char × Option (List Char) :=
  splitFirst ':' (((splitLast? '@' cs).map Prod.fst).getD [])

/-- What stands after the last at sign. -/
def hostAndPort (cs : List Char) : List Char :=
  ((splitLast? '@' cs).map Prod.snd).getD cs

/-- The authority of a web address is its port, its host and some credentials. -/
theorem authority?_of_web [DomainMapping] [LawfulDomainMapping] {scheme : String}
    (hweb : IsWebScheme scheme) (cs : List Char) :
    authority? scheme cs =
      (port? scheme (splitPort (hostAndPort cs)).2).bind fun port =>
        (specialHost? (splitPort (hostAndPort cs)).1).map fun host =>
          { username := String.ofList (percentEncode inUserinfoSet (credentials cs).1)
            password := String.ofList (percentEncode inUserinfoSet ((credentials cs).2.getD []))
            host := String.ofList host
            port } := by
  -- an empty host is refused as a domain, too
  have hhost : ∀ (text : List Char) (f : List Char → Authority),
      (if text.isEmpty then none else (specialHost? text).bind fun host => some (f host)) =
        (specialHost? text).map f := by
    intro text f
    cases text with
    | nil =>
      rw [specialHost?_nil]
      rfl
    | cons c cs => exact Option.map_eq_bind.symm
  unfold authority? credentials hostAndPort
  cases splitLast? '@' cs <;>
    simp only [Option.map_none, Option.map_some, Option.getD_none, Option.getD_some, hweb.isSpecial,
      bne_iff_ne.2 hweb.ne_file, decide_eq_false hweb.ne_file, Bool.and_true, Bool.or_true,
      Bool.false_and, Bool.false_eq_true, if_true, if_false, Option.bind_eq_bind, Option.bind_none]
  all_goals exact Option.bind_congr fun port _ => hhost _ _

theorem written_of_authority? [DomainMapping] [LawfulDomainMapping] {scheme : String}
    {cs : List Char} {a : Authority} (hweb : IsWebScheme scheme) (h : authority? scheme cs = some a) : a.Written scheme := by
  rw [authority?_of_web hweb] at h
  obtain ⟨port, hport, h⟩ := Option.bind_eq_some_iff.1 h
  obtain ⟨host, hhost, rfl⟩ := Option.map_eq_some_iff.1 h
  refine ⟨fun c hc => ?_, fun c hc => ?_, ?_, port?_bounds hport⟩
  · exact isAuthorityChar_of_mem_percentEncode (String.toList_ofList ▸ hc)
  · exact isAuthorityChar_of_mem_percentEncode (String.toList_ofList ▸ hc)
  · rw [String.toList_ofList]
    exact writtenHost_of_specialHost? hhost

/-- The text of an authority: credentials, if there are any, then host and port. -/
theorem Authority.toList_text (a : Authority) :
    ∃ front, a.text.toList = front ++ (a.host.toList ++ portText a.port) ∧
      (front = [] ∨ ∃ info, front = info ++ ['@'] ∧
        ∀ c ∈ info, c = ':' ∨ c ∈ a.username.toList ∨ c ∈ a.password.toList) := by
  obtain ⟨username, password, host, port⟩ := a
  refine ⟨(if username.isEmpty && password.isEmpty then ""
    else username ++ (if password.isEmpty then "" else ":" ++ password) ++ "@").toList, ?_, ?_⟩
  · cases port <;> simp [Authority.text, portText, Text.showNat]
  split
  · exact .inl rfl
  · refine .inr ⟨(username ++ if password.isEmpty then "" else ":" ++ password).toList, by simp, ?_⟩
    intro c hc
    rw [String.toList_append, List.mem_append] at hc
    rcases hc with hc | hc
    · exact .inr (.inl hc)
    split at hc
    · cases hc
    · rw [String.toList_append, List.mem_append] at hc
      rcases hc with hc | hc
      · exact .inl (List.mem_singleton.1 hc)
      · exact .inr (.inr hc)

theorem isAuthorityChar_of_mem_hostPort [DomainMapping] {host : List Char} (h : WrittenHost host)
    {port : Option Nat} {c : Char} (hc : c ∈ host ++ portText port) : IsAuthorityChar c ∧ c ≠ '@' := by
  rcases List.mem_append.1 hc with hc | hc
  · exact h.chars c hc
  · rcases mem_portText hc with rfl | ⟨d, hd, rfl⟩
    · decide
    · exact isAuthorityChar_digitChar hd

/-- An authority is read back with its host and port. -/
theorem Authority.Written.read [DomainMapping] [LawfulDomainMapping] {scheme : String} {a : Authority}
    (hweb : IsWebScheme scheme) (h : a.Written scheme) :
    ∃ b, authority? scheme a.text.toList = some b ∧ b.host = a.host ∧ b.port = a.port := by
  obtain ⟨front, htext, hfront⟩ := a.toList_text
  have hat : '@' ∉ a.host.toList ++ portText a.port := fun hmem =>
    (isAuthorityChar_of_mem_hostPort h.host hmem).2 rfl
  have hrest : hostAndPort a.text.toList = a.host.toList ++ portText a.port := by
    rw [htext, hostAndPort]
    rcases hfront with rfl | ⟨info, rfl, -⟩
    · rw [List.nil_append, splitLast?_of_notMem hat]
      rfl
    · rw [List.append_assoc, List.singleton_append, splitLast?_append hat]
      rfl
  rw [authority?_of_web hweb, hrest, h.host.splitPort, port?_natDigits h.port, Option.bind_some,
    h.host.read]
  exact ⟨_, rfl, String.ofList_toList, rfl⟩

/-- The text of an authority ends nowhere before the path. -/
theorem Authority.Written.chars [DomainMapping] {scheme : String} {a : Authority}
    (h : a.Written scheme) :
    ∀ c ∈ a.text.toList, IsAuthorityChar c := by
  obtain ⟨front, htext, hfront⟩ := a.toList_text
  intro c hc
  rw [htext, List.mem_append] at hc
  rcases hc with hc | hc
  · rcases hfront with rfl | ⟨info, rfl, hinfo⟩
    · cases hc
    · rcases List.mem_append.1 hc with hc | hc
      · obtain rfl | hc | hc := hinfo c hc
        · decide
        · exact h.username c hc
        · exact h.password c hc
      · obtain rfl := List.mem_singleton.1 hc
        decide
  · exact (isAuthorityChar_of_mem_hostPort h.host hc).1

theorem Authority.Written.text_ne_nil [DomainMapping] {scheme : String} {a : Authority}
    (h : a.Written scheme) :
    a.text.toList ≠ [] := by
  obtain ⟨front, htext, -⟩ := a.toList_text
  rw [htext]
  intro hnil
  exact h.host.ne_nil (List.append_eq_nil_iff.1 (List.append_eq_nil_iff.1 hnil).2).1

end Telebridge.Url
