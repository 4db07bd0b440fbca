import Telebridge.Proofs.Encoding.Utf8
import Telebridge.Proofs.Url.Domain
set_option autoImplicit false

/-! # Hosts in their written form

The host of a web address is written as a domain in ASCII, as an IPv4 address or as an IPv6 address in
brackets (`WrittenHost`). What is read is in written form, and a host in written form is read as itself
(`writtenHost_of_specialHost?`, `WrittenHost.read`), so reading twice changes nothing. -/

namespace Telebridge.Url

/-! ## Domains as bytes -/

theorem percentDecode_eq_self {bytes : List UInt8} (h : 37 ∉ bytes) :
    Form.percentDecode bytes = bytes := by
  induction bytes using Form.percentDecode.induct with
  | case1 a b rest x y hx hy ih => exact absurd List.mem_cons_self h
  | case2 a b rest hnone ih => exact absurd List.mem_cons_self h
  | case3 b rest hpercent ih =>
    rw [Form.percentDecode, ih fun hmem => h (List.mem_cons_of_mem _ hmem)]
    exact hpercent
  | case4 => rfl

theorem utf8EncodeChar_ascii {c : Char} (h : c.toNat < 128) :
    String.utf8EncodeChar c = [UInt8.ofNat c.toNat] := by
  simp only [String.utf8EncodeChar]
  rw [if_pos (show c.val.toNat ≤ 127 from Nat.le_of_lt_succ h)]
  rfl

/-- A text in ASCII without percent signs is not changed by decoding. -/
theorem decodeLossy_percentDecode {text : List Char} (h : ∀ c ∈ text, c.toNat < 128 ∧ c ≠ '%') :
    Utf8.decodeLossy (Form.percentDecode (Utf8.encode (String.ofList text)).data.toList) = text := by
  have hpercent : 37 ∉ (Utf8.encode (String.ofList text)).data.toList := by
    rw [Utf8.toList_encode, String.toList_ofList, List.mem_flatMap]
    rintro ⟨c, hc, hmem⟩
    obtain ⟨hascii, hne⟩ := h c hc
    rw [utf8EncodeChar_ascii hascii, List.mem_singleton] at hmem
    have hcode : c.toNat = 37 := by
      have := congrArg UInt8.toNat hmem
      rw [UInt8.toNat_ofNat'] at this
      simp at this
      omega
    exact hne (Char.toNat_inj.1 hcode)
  rw [percentDecode_eq_self hpercent, Utf8.decodeLossy, Utf8.scan_encode, String.toList_ofList,
    List.map_map]
  exact List.map_id' text

/-! ## Characters -/

/-- A character of a host that is not in brackets. -/
def IsDomainChar (c : Char) : Prop :=
  c.toNat < 128 ∧ isForbiddenInDomain c = false

instance (c : Char) : Decidable (IsDomainChar c) :=
  inferInstanceAs (Decidable (_ ∧ _))

theorem IsDomainChar.ne {c d : Char} (h : IsDomainChar c) (hd : isForbiddenInDomain d = true) :
    c ≠ d := by
  rintro rfl
  exact absurd (hd.symm.trans h.2) (by decide)

theorem mem_ipv4Text {n : Nat} {c : Char} (h : c ∈ ipv4Text n) : c = '.' ∨ ∃ d < 10, c = d.digitChar := by
  rcases mem_intercalate h with rfl | ⟨digits, hdigits, hc⟩
  · exact .inl rfl
  · obtain ⟨m, -, rfl⟩ := List.mem_map.1 hdigits
    exact .inr (mem_toDigits (by decide) hc)

theorem isDomainChar_of_mem_ipv4Text {n : Nat} {c : Char} (h : c ∈ ipv4Text n) : IsDomainChar c := by
  have hall : ∀ d < 10, IsDomainChar d.digitChar := by decide
  obtain rfl | ⟨d, hd, rfl⟩ := mem_ipv4Text h
  · decide
  · exact hall d hd

theorem ipv4Text_ne_nil (n : Nat) : ipv4Text n ≠ [] := by
  intro hnil
  have hnumber := endsInNumber_dotted (n / Nat.pow 2 24 % 256) (n / Nat.pow 2 16 % 256)
    (n / Nat.pow 2 8 % 256) (n % 256)
  rw [← ipv4Text_eq, hnil] at hnumber
  exact absurd hnumber (by decide)

/-! ## Written form -/

section Written

variable [DomainMapping]

/-- A host as it is written. -/
inductive WrittenHost : List Char → Prop
  | domain {host : List Char} (hne : host ≠ []) (hchars : ∀ c ∈ host, IsDomainChar c)
      (hwritten : DomainMapping.toAscii? host = some host) (hnumber : endsInNumber host = false) :
      WrittenHost host
  | ipv4 (n : Nat) : WrittenHost (ipv4Text n)
  | ipv6 {pieces : List Nat} (hlength : pieces.length = 8) (hpieces : ∀ p ∈ pieces, p < 65536) :
      WrittenHost (ipv6Text pieces)

/-- The domain that a text without brackets names. -/
def domainOf? (text : List Char) : Option (List Char) :=
  DomainMapping.toAscii? (Utf8.decodeLossy
    (Form.percentDecode (Utf8.encode (String.ofList text)).data.toList))

theorem specialHost?_of_domain {text : List Char} (h : text.head? ≠ some '[') :
    specialHost? text = (domainOf? text).bind fun domain =>
      if domain.isEmpty || domain.any isForbiddenInDomain then none
      else if endsInNumber domain then (ipv4? domain).map ipv4Text
      else some domain := by
  unfold specialHost?
  split
  · exact absurd rfl h
  · rfl

/-- What is written as it stands is read as an address or as it stands. -/
theorem specialHost?_of_chars {host : List Char} (hne : host ≠ []) (h : ∀ c ∈ host, IsDomainChar c)
    (hwritten : DomainMapping.toAscii? host = some host) :
    specialHost? host =
      if endsInNumber host then (ipv4? host).map ipv4Text else some host := by
  have hbracket : host.head? ≠ some '[' := fun hhead =>
    (h '[' (List.mem_of_mem_head? hhead)).ne (by decide) rfl
  have hallowed : (host.isEmpty || host.any isForbiddenInDomain) = false := by
    rw [List.isEmpty_eq_false_iff.2 hne, Bool.false_or, List.any_eq_false]
    exact fun c hc hforbidden => (h c hc).ne hforbidden rfl
  have hdomain : domainOf? host = some host := by
    rw [domainOf?, decodeLossy_percentDecode fun c hc => ⟨(h c hc).1, (h c hc).ne (by decide)⟩,
      hwritten]
  rw [specialHost?_of_domain hbracket, hdomain, Option.bind_some, hallowed]
  rfl

variable [LawfulDomainMapping]

/-- An IPv4 address is a plain name. -/
theorem toAscii?_ipv4Text (n : Nat) : DomainMapping.toAscii? (ipv4Text n) = some (ipv4Text n) := by
  have hall : ∀ d < 10, d.digitChar.isDigit ∧ d.digitChar ≠ 'x' := by decide
  refine LawfulDomainMapping.plain (fun c hc => ?_) fun hpunycode => ?_
  · obtain rfl | ⟨d, hd, rfl⟩ := mem_ipv4Text hc
    · exact .inr (.inr (.inr rfl))
    · exact .inr (.inl (hall d hd).1)
  · obtain hdot | ⟨d, hd, hx⟩ := mem_ipv4Text (hpunycode.subset List.mem_cons_self)
    · exact absurd hdot (by decide)
    · exact (hall d hd).2 hx.symm

/-- An empty text names no host. -/
theorem specialHost?_nil : specialHost? [] = none := by
  have hdomain : domainOf? [] = some [] := by
    rw [domainOf?, decodeLossy_percentDecode fun c hc => by cases hc]
    exact LawfulDomainMapping.plain (fun c hc => by cases hc) (by simp)
  rw [specialHost?_of_domain (by decide), hdomain]
  rfl

/-- What is read is in written form. -/
theorem writtenHost_of_specialHost? {text host : List Char} (h : specialHost? text = some host) :
    WrittenHost host := by
  by_cases hbracket : text.head? = some '['
  · obtain ⟨rest, rfl⟩ := List.head?_eq_some_iff.1 hbracket
    rw [specialHost?] at h
    split at h
    · obtain ⟨pieces, hpieces, rfl⟩ := Option.map_eq_some_iff.1 h
      obtain ⟨hlength, hlt⟩ := ipv6?_pieces hpieces
      exact .ipv6 hlength hlt
    · cases h
  · rw [specialHost?_of_domain hbracket] at h
    obtain ⟨domain, hdomain, h⟩ := Option.bind_eq_some_iff.1 h
    split at h
    · cases h
    · next hplain =>
      simp only [Bool.or_eq_true, not_or, List.any_eq_true, not_exists, not_and] at hplain
      split at h
      · obtain ⟨n, -, rfl⟩ := Option.map_eq_some_iff.1 h
        exact .ipv4 n
      · next hnumber =>
        cases h
        refine .domain (fun hnil => hplain.1 (by rw [hnil]; rfl)) (fun c hc => ?_)
          (LawfulDomainMapping.again hdomain) (Bool.eq_false_iff.2 hnumber)
        exact ⟨LawfulDomainMapping.ascii hdomain c hc, Bool.eq_false_iff.2 (hplain.2 c hc)⟩

/-- A host in written form is read as itself. -/
theorem WrittenHost.read {host : List Char} (h : WrittenHost host) : specialHost? host = some host := by
  cases h with
  | domain hne hchars hwritten hnumber =>
    rw [specialHost?_of_chars hne hchars hwritten, hnumber]
    rfl
  | ipv4 n =>
    rw [specialHost?_of_chars (ipv4Text_ne_nil n) (fun c hc => isDomainChar_of_mem_ipv4Text hc)
      (toAscii?_ipv4Text n), ipv4Text_eq, endsInNumber_dotted, ← ipv4Text_eq, if_pos rfl,
      ipv4Text_of_ipv4?]
  | ipv6 hlength hpieces =>
    rw [ipv6Text_eq, specialHost?, List.getLast?_concat, if_pos rfl, List.dropLast_concat,
      ipv6?_insideText hlength hpieces]
    rfl

end Written

end Telebridge.Url
