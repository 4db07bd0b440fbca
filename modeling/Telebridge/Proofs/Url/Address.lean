import Mathlib.Data.List.Induction
import Telebridge.Proofs.Text.Numeral
import Telebridge.Url.Host
set_option autoImplicit false

/-! # Addresses are read back

An IPv4 address is written as four decimal numbers, an IPv6 address as hexadecimal pieces with its
longest run of zeros left out. Read again, the first gives the same text (`ipv4Text_of_ipv4?`), and the
second the same pieces (`ipv6?_insideText`). -/

namespace Telebridge.Url

/-! ## Digits -/

theorem digitIn?_lt {base v : Nat} {c : Char} (h : digitIn? base c = some v) : v < base := by
  simp only [digitIn?, Option.ite_none_right_eq_some, Option.some.injEq] at h
  exact h.2 ▸ h.1

theorem digitIn?_digitChar {base d : Nat} (hbase : base ≤ 16) (h : d < base) :
    digitIn? base d.digitChar = some d := by
  have hvalue : ∀ d < 16, digitIn? 16 d.digitChar = some d := by decide
  have hd := hvalue d (by omega)
  simp only [digitIn?, Option.ite_none_right_eq_some, Option.some.injEq] at hd ⊢
  exact ⟨hd.2.symm ▸ h, hd.2⟩

/-- The digits of a number are those below the base. -/
theorem mem_toDigits {base n : Nat} {c : Char} (hbase : 1 < base) (h : c ∈ Nat.toDigits base n) :
    ∃ d < base, c = d.digitChar := by
  induction n using Nat.strongRecOn with
  | ind n ih =>
    rw [Nat.toDigits_eq_if hbase] at h
    split at h
    · next hn => exact ⟨n, hn, List.mem_singleton.1 h⟩
    · next hn =>
      rcases List.mem_append.1 h with h | h
      · exact ih (n / base) (Nat.div_lt_self (by omega) hbase) h
      · exact ⟨n % base, Nat.mod_lt _ (by omega), List.mem_singleton.1 h⟩

theorem numberIn?_snoc (base : Nat) (cs : List Char) (c : Char) :
    numberIn? base (cs ++ [c]) =
      (numberIn? base cs).bind fun n => (digitIn? base c).map (n * base + ·) := by
  simp only [numberIn?, List.foldlM_append, List.foldlM_cons, List.foldlM_nil, bind_pure]
  rfl

theorem numberIn?_toDigits {base : Nat} (hbase : 1 < base) (hbase' : base ≤ 16) (n : Nat) :
    numberIn? base (Nat.toDigits base n) = some n := by
  induction n using Nat.strongRecOn with
  | ind n ih =>
    rw [Nat.toDigits_eq_if hbase]
    split
    · next hn =>
      rw [← List.nil_append [n.digitChar], numberIn?_snoc, digitIn?_digitChar hbase' hn]
      simp [numberIn?]
    · next hn =>
      rw [numberIn?_snoc, ih _ (Nat.div_lt_self (by omega) hbase),
        digitIn?_digitChar hbase' (Nat.mod_lt _ (by omega))]
      exact congrArg some (Nat.div_add_mod' n base)

theorem numberIn?_lt {base n : Nat} {cs : List Char} (h : numberIn? base cs = some n) :
    n < Nat.pow base cs.length := by
  induction cs using List.reverseRecOn generalizing n with
  | nil =>
    cases h
    exact Nat.one_pos
  | append_singleton cs c ih =>
    rw [numberIn?_snoc] at h
    obtain ⟨m, hm, h⟩ := Option.bind_eq_some_iff.1 h
    obtain ⟨v, hv, rfl⟩ := Option.map_eq_some_iff.1 h
    rw [List.length_append, List.length_singleton]
    calc m * base + v < m * base + base := Nat.add_lt_add_left (digitIn?_lt hv) _
      _ = (m + 1) * base := (Nat.succ_mul m base).symm
      _ ≤ Nat.pow base cs.length * base := Nat.mul_le_mul_right _ (ih hm)

/-! ## Separators -/

theorem splitDots_eq_splitOn (cs : List Char) : splitDots cs = cs.splitOn '.' := by
  induction cs with
  | nil => rfl
  | cons c rest ih =>
    rw [splitDots, ih, List.splitOn, List.splitOn, List.splitOnP_cons_eq_if_modifyHead]
    by_cases h : c = '.'
    · simp [h]
    · cases h' : List.splitOnP (fun x => x == '.') rest with
      | nil => exact absurd h' (List.splitOnP_ne_nil _ _)
      | cons part parts => simp [h]

theorem mem_of_mem_splitDots {cs part : List Char} {c : Char} (hpart : part ∈ splitDots cs)
    (hc : c ∈ part) : c ∈ cs := by
  induction cs generalizing part with
  | nil =>
    obtain rfl := List.mem_singleton.1 hpart
    cases hc
  | cons d rest ih =>
    rw [splitDots] at hpart
    split at hpart
    · rcases List.mem_cons.1 hpart with rfl | hpart
      · cases hc
      · exact List.mem_cons_of_mem _ (ih hpart hc)
    split at hpart
    · next first parts hrest =>
      rw [hrest] at ih
      rcases List.mem_cons.1 hpart with rfl | hpart
      · rcases List.mem_cons.1 hc with rfl | hc
        · exact List.mem_cons_self
        · exact List.mem_cons_of_mem _ (ih List.mem_cons_self hc)
      · exact List.mem_cons_of_mem _ (ih (List.mem_cons_of_mem _ hpart) hc)
    · obtain rfl := List.mem_singleton.1 hpart
      obtain rfl := List.mem_singleton.1 hc
      exact List.mem_cons_self

theorem splitColons_eq_splitOn (cs : List Char) : splitColons cs = cs.splitOn ':' := by
  induction cs with
  | nil => rfl
  | cons c rest ih =>
    rw [splitColons, ih, List.splitOn, List.splitOn, List.splitOnP_cons_eq_if_modifyHead]
    by_cases h : c = ':'
    · simp [h]
    · cases h' : List.splitOnP (fun x => x == ':') rest with
      | nil => exact absurd h' (List.splitOnP_ne_nil _ _)
      | cons part parts => simp [h]

theorem mem_intercalate {sep c : Char} {parts : List (List Char)} (h : c ∈ [sep].intercalate parts) :
    c = sep ∨ ∃ part ∈ parts, c ∈ part := by
  induction parts with
  | nil => cases h
  | cons part parts ih =>
    cases parts with
    | nil =>
      rw [List.intercalate_singleton] at h
      exact .inr ⟨part, List.mem_cons_self, h⟩
    | cons next parts =>
      rw [List.intercalate_cons_cons, List.append_assoc, List.mem_append, List.singleton_append,
        List.mem_cons] at h
      rcases h with h | h | h
      · exact .inr ⟨part, List.mem_cons_self, h⟩
      · exact .inl h
      · obtain hsep | ⟨part', hpart', hc⟩ := ih h
        · exact .inl hsep
        · exact .inr ⟨part', List.mem_cons_of_mem _ hpart', hc⟩

/-! ## IPv4 -/

/-- Four numbers between dots. -/
def dotted (a b c d : Nat) : List Char :=
  ['.'].intercalate ([a, b, c, d].map Text.natDigits)

theorem ipv4Text_eq (n : Nat) :
    ipv4Text n =
      dotted (n / Nat.pow 2 24 % 256) (n / Nat.pow 2 16 % 256) (n / Nat.pow 2 8 % 256) (n % 256) :=
  rfl

theorem isDigit_ne_dot {c : Char} (h : c.isDigit = true) : c ≠ '.' := by
  rintro rfl
  exact absurd h (by decide)

theorem splitDots_dotted (a b c d : Nat) :
    splitDots (dotted a b c d) = [a, b, c, d].map Text.natDigits := by
  rw [splitDots_eq_splitOn]
  refine List.splitOn_intercalate _ (fun part hpart hdot => ?_) (by simp)
  obtain ⟨n, -, rfl⟩ := List.mem_map.1 hpart
  exact isDigit_ne_dot (Text.isDigit_natDigits n _ hdot) rfl

theorem hostParts_dotted (a b c d : Nat) :
    hostParts (dotted a b c d) = [a, b, c, d].map Text.natDigits := by
  rw [hostParts, splitDots_dotted, if_neg]
  simp [Text.natDigits_ne_nil]

theorem endsInNumber_dotted (a b c d : Nat) : endsInNumber (dotted a b c d) = true := by
  have hdigits : (Text.natDigits d).all Char.isDigit = true :=
    List.all_eq_true.2 (Text.isDigit_natDigits d)
  obtain ⟨c₀, cs, hcs⟩ := List.exists_cons_of_ne_nil (Text.natDigits_ne_nil d)
  simp only [endsInNumber, hostParts_dotted, List.map_cons, List.map_nil]
  simp only [List.getLast?_cons_cons, List.getLast?_singleton, hcs]
  rw [← hcs, hdigits, Bool.true_or]

theorem ipv4Part?_natDigits {n : Nat} (h : n < 256) : ipv4Part? (Text.natDigits n) = some n := by
  have hall : ∀ n < 256, ipv4Part? (Text.natDigits n) = some n := by decide +kernel
  exact hall n h

theorem ipv4?_dotted {a b c d : Nat} (ha : a < 256) (hb : b < 256) (hc : c < 256) (hd : d < 256) :
    ipv4? (dotted a b c d) = some (d + (a * 16777216 + b * 65536 + c * 256)) := by
  have hnumbers : ([a, b, c, d].map Text.natDigits).mapM ipv4Part? = some [a, b, c, d] := by
    simp [ipv4Part?_natDigits, ha, hb, hc, hd]
  have hbytes : (a ≤ 255 ∧ b ≤ 255 ∧ c ≤ 255) ∧ d < 256 := by omega
  simp only [ipv4?, hostParts_dotted, hnumbers, Option.bind_eq_bind, Option.bind_some]
  simpa using hbytes

/-- An IPv4 address is read as an address of the same text. -/
theorem ipv4Text_of_ipv4? (n : Nat) : (ipv4? (ipv4Text n)).map ipv4Text = some (ipv4Text n) := by
  have hmod : ∀ m, m % 256 < 256 := fun m => Nat.mod_lt _ (by decide)
  rw [ipv4Text_eq, ipv4?_dotted (hmod _) (hmod _) (hmod _) (hmod _), Option.map_some, ipv4Text_eq]
  simp only [show Nat.pow 2 24 = 16777216 from rfl, show Nat.pow 2 16 = 65536 from rfl,
    show Nat.pow 2 8 = 256 from rfl]
  congr 2 <;> omega

/-! ## Pieces of IPv6 -/

/-- Parts that are read alike, wherever they stand. -/
theorem mapIdxM_eq_some {α β : Type} {f : Nat → α → Option β} {g : α → β} {parts : List α}
    (h : ∀ i, ∀ part ∈ parts, f i part = some (g part)) : parts.mapIdxM f = some (parts.map g) := by
  -- the accumulator holds what has been read so far
  suffices hgo : ∀ acc : Array β,
      List.mapIdxM.go f parts acc = some (acc.toList ++ parts.map g) from hgo #[]
  induction parts with
  | nil =>
    intro acc
    rw [List.mapIdxM.go, List.map_nil, List.append_nil]
    rfl
  | cons part parts ih =>
    intro acc
    rw [List.mapIdxM.go, h _ part List.mem_cons_self]
    show List.mapIdxM.go f parts (acc.push (g part)) = _
    rw [ih (fun i part' hpart => h i part' (List.mem_cons_of_mem _ hpart)), Array.toList_push,
      List.append_assoc]
    rfl

/-- What has been read comes from one of the parts. -/
theorem of_mem_mapIdxM {α β : Type} {f : Nat → α → Option β} {parts : List α} {groups : List β}
    (h : parts.mapIdxM f = some groups) {group : β} (hgroup : group ∈ groups) :
    ∃ i, ∃ part ∈ parts, f i part = some group := by
  suffices hgo : ∀ acc : Array β, List.mapIdxM.go f parts acc = some groups →
      group ∈ acc.toList ∨ ∃ i, ∃ part ∈ parts, f i part = some group by
    exact (hgo #[] h).resolve_left (List.not_mem_nil)
  clear h
  induction parts with
  | nil =>
    intro acc hacc
    cases hacc
    exact .inl hgroup
  | cons part parts ih =>
    intro acc hacc
    rw [List.mapIdxM.go] at hacc
    obtain ⟨first, hfirst, hrest⟩ := Option.bind_eq_some_iff.1 hacc
    rcases ih _ hrest with hmem | ⟨i, part', hpart', hread⟩
    · rw [Array.toList_push, List.mem_append, List.mem_singleton] at hmem
      rcases hmem with hmem | rfl
      · exact .inl hmem
      · exact .inr ⟨_, part, List.mem_cons_self, hfirst⟩
    · exact .inr ⟨i, part', List.mem_cons_of_mem _ hpart', hread⟩

theorem of_mem_mapM {α β : Type} {f : α → Option β} {parts : List α} {values : List β}
    (h : parts.mapM f = some values) {value : β} (hvalue : value ∈ values) :
    ∃ part ∈ parts, f part = some value := by
  induction parts generalizing values with
  | nil =>
    cases h
    cases hvalue
  | cons part parts ih =>
    rw [List.mapM_cons] at h
    obtain ⟨first, hfirst, h⟩ := Option.bind_eq_some_iff.1 h
    obtain ⟨rest, hrest, h⟩ := Option.bind_eq_some_iff.1 h
    cases h
    rcases List.mem_cons.1 hvalue with rfl | hvalue
    · exact ⟨part, List.mem_cons_self, hfirst⟩
    · obtain ⟨part', hpart', hread⟩ := ih hrest hvalue
      exact ⟨part', List.mem_cons_of_mem _ hpart', hread⟩

theorem strictByte?_lt {cs : List Char} {n : Nat} (h : strictByte? cs = some n) : n < 256 := by
  obtain ⟨m, -, h⟩ := Option.bind_eq_some_iff.1 h
  split at h
  · cases h
  · next hm =>
    cases h
    simp only [Bool.or_eq_true, decide_eq_true_eq, not_or] at hm
    omega

/-- Every piece that is read has 16 bits. -/
theorem pieces?_lt {parts : List (List Char)} {pieces : List Nat} (h : pieces? parts = some pieces) :
    ∀ p ∈ pieces, p < 65536 := by
  obtain ⟨groups, hgroups, hpieces⟩ := Option.bind_eq_some_iff.1 h
  cases hpieces
  intro p hp
  obtain ⟨group, hgroup, hp⟩ := List.mem_flatten.1 hp
  obtain ⟨i, part, -, hread⟩ := of_mem_mapIdxM hgroups hgroup
  split at hread
  -- an IPv4 address at the end gives two pieces, any other part gives one
  · obtain ⟨bytes, hbytes, hread⟩ := Option.bind_eq_some_iff.1 hread
    have hsmall : ∀ n ∈ bytes, n < 256 := by
      intro n hn
      obtain ⟨part, -, hread⟩ := of_mem_mapM hbytes hn
      exact strictByte?_lt hread
    split at hread
    · next a b c d =>
      cases hread
      have ha := hsmall a (by simp)
      have hb := hsmall b (by simp)
      have hc := hsmall c (by simp)
      have hd := hsmall d (by simp)
      simp only [List.mem_cons, List.not_mem_nil, or_false] at hp
      omega
    · cases hread
  split at hread
  · cases hread
  · next hshort =>
    obtain ⟨n, hn, rfl⟩ := Option.map_eq_some_iff.1 hread
    obtain rfl := List.mem_singleton.1 hp
    simp only [Bool.or_eq_true, decide_eq_true_eq, not_or] at hshort
    calc p < Nat.pow 16 part.length := numberIn?_lt hn
      _ ≤ Nat.pow 16 4 := Nat.pow_le_pow_right (by decide) (by omega)

/-! ## IPv6 -/

theorem hexDigit_ne {p : Nat} {c d : Char} (h : c ∈ Nat.toDigits 16 p)
    (hd : ∀ v < 16, v.digitChar ≠ d) : c ≠ d := by
  obtain ⟨v, hv, rfl⟩ := mem_toDigits (by decide) h
  exact hd v hv

theorem pieces?_toDigits {pieces : List Nat} (h : ∀ p ∈ pieces, p < 65536) :
    pieces? (pieces.map (Nat.toDigits 16)) = some pieces := by
  unfold pieces?
  rw [mapIdxM_eq_some (g := fun part => [(numberIn? 16 part).getD 0])]
  · rw [List.map_map, Option.bind_eq_bind, Option.bind_some]
    refine congrArg some ?_
    calc ((pieces.map ((fun part => [(numberIn? 16 part).getD 0]) ∘ Nat.toDigits 16)).flatten)
        = (pieces.map fun p => [p]).flatten := by
          simp only [Function.comp_def, numberIn?_toDigits (show 1 < 16 by decide) (by decide),
            Option.getD_some]
      _ = pieces := List.flatMap_singleton' pieces
  · intro i part hpart
    obtain ⟨p, hp, rfl⟩ := List.mem_map.1 hpart
    have hdot : (Nat.toDigits 16 p).contains '.' = false := by
      rw [List.contains_eq_mem, decide_eq_false_iff_not]
      exact fun hdot => hexDigit_ne hdot (by decide) rfl
    have hlength : (Nat.toDigits 16 p).length ≤ 4 :=
      (Nat.length_toDigits_le_iff (by decide) (by decide)).2 (h p hp)
    have hne : (Nat.toDigits 16 p).isEmpty = false := by
      simp [Nat.toDigits_ne_nil]
    rw [hdot, Bool.and_false, if_neg Bool.false_ne_true, hne, Bool.false_or,
      if_neg (by simpa using hlength), numberIn?_toDigits (by decide) (by decide)]
    rfl

/-- A piece is one part of the text. -/
theorem splitColons_piecesText {pieces : List Nat} (hne : pieces ≠ []) :
    splitColons (piecesText pieces) = pieces.map (Nat.toDigits 16) := by
  rw [splitColons_eq_splitOn]
  refine List.splitOn_intercalate _ (fun part hpart hcolon => ?_) (by simpa using hne)
  obtain ⟨p, -, rfl⟩ := List.mem_map.1 hpart
  exact hexDigit_ne hcolon (by decide) rfl

theorem piecesText_cons_cons (p q : Nat) (pieces : List Nat) :
    piecesText (p :: q :: pieces) = Nat.toDigits 16 p ++ ':' :: piecesText (q :: pieces) := by
  simp [piecesText]

/-- The text of some pieces starts with a digit. -/
theorem exists_piecesText_cons (p : Nat) (pieces : List Nat) :
    ∃ c cs, c ∈ Nat.toDigits 16 p ∧ piecesText (p :: pieces) = c :: cs := by
  obtain ⟨c, cs, hcs⟩ := List.exists_cons_of_ne_nil (Nat.toDigits_ne_nil (b := 16) (n := p))
  have hc : c ∈ Nat.toDigits 16 p := hcs ▸ List.mem_cons_self
  cases pieces with
  | nil => exact ⟨c, cs, hc, by simp [piecesText, hcs]⟩
  | cons q pieces => exact ⟨c, _, hc, by rw [piecesText_cons_cons, hcs, List.cons_append]⟩

theorem piecesText_isEmpty (pieces : List Nat) : (piecesText pieces).isEmpty = pieces.isEmpty := by
  cases pieces with
  | nil => rfl
  | cons p pieces =>
    obtain ⟨c, cs, -, hcs⟩ := exists_piecesText_cons p pieces
    rw [hcs]
    rfl

/-- Pieces are written in digits and colons. -/
theorem mem_piecesText {pieces : List Nat} {c : Char} (h : c ∈ piecesText pieces) :
    c = ':' ∨ ∃ p, c ∈ Nat.toDigits 16 p := by
  rcases mem_intercalate h with rfl | ⟨part, hpart, hc⟩
  · exact .inl rfl
  · obtain ⟨p, -, rfl⟩ := List.mem_map.1 hpart
    exact .inr ⟨p, hc⟩

/-- What one side of a gap says. -/
def side? (text : List Char) : Option (List Nat) :=
  if text.isEmpty then some [] else pieces? (splitColons text)

theorem side?_lt {text : List Char} {pieces : List Nat} (h : side? text = some pieces) :
    ∀ p ∈ pieces, p < 65536 := by
  unfold side? at h
  split at h
  · cases h
    exact fun p hp => by cases hp
  · exact pieces?_lt h

theorem side?_piecesText {pieces : List Nat} (h : ∀ p ∈ pieces, p < 65536) :
    side? (piecesText pieces) = some pieces := by
  rw [side?, piecesText_isEmpty]
  cases pieces with
  | nil => rfl
  | cons p pieces =>
    rw [splitColons_piecesText (List.cons_ne_nil _ _), pieces?_toDigits h]
    rfl

theorem gap_append {cs : List Char} (h : ∀ c ∈ cs, c ≠ ':') (before rest : List Char) :
    ipv6?.gap before (cs ++ rest) = ipv6?.gap (cs.reverse ++ before) rest := by
  induction cs generalizing before with
  | nil => rfl
  | cons c cs ih =>
    have hc : c ≠ ':' := h c List.mem_cons_self
    rw [List.cons_append, ipv6?.gap, ih (fun d hd => h d (List.mem_cons_of_mem _ hd)),
      List.reverse_cons, List.append_assoc]
    · rfl
    · rintro _ rfl
      exact absurd rfl hc

/-- A single colon does not end the first side. -/
theorem gap_colon {rest : List Char} (h : rest.head? ≠ some ':') (before : List Char) :
    ipv6?.gap before (':' :: rest) = ipv6?.gap (':' :: before) rest := by
  rw [ipv6?.gap]
  rintro rest' - rfl
  exact h rfl

/-- There is no gap between pieces. -/
theorem gap_piecesText (pieces : List Nat) (before rest : List Char) :
    ipv6?.gap before (piecesText pieces ++ rest) =
      ipv6?.gap ((piecesText pieces).reverse ++ before) rest := by
  have hdigits : ∀ p, ∀ c ∈ Nat.toDigits 16 p, c ≠ ':' := fun p c hc => hexDigit_ne hc (by decide)
  induction pieces generalizing before with
  | nil => rfl
  | cons p pieces ih =>
    cases pieces with
    | nil =>
      have hone : piecesText [p] = Nat.toDigits 16 p := by simp [piecesText]
      rw [hone]
      exact gap_append (hdigits p) before rest
    | cons q pieces =>
      have hhead : (piecesText (q :: pieces) ++ rest).head? ≠ some ':' := by
        obtain ⟨c, cs, hc, hcs⟩ := exists_piecesText_cons q pieces
        rw [hcs]
        exact fun heq => hdigits q c hc (Option.some.inj heq)
      rw [piecesText_cons_cons, List.append_assoc, gap_append (hdigits p), List.cons_append,
        gap_colon hhead, ih]
      simp

theorem replicate_zeroRun (pieces : List Nat) :
    List.replicate (zeroRun pieces) 0 ++ pieces.drop (zeroRun pieces) = pieces := by
  induction pieces with
  | nil => rfl
  | cons p pieces ih =>
    by_cases hp : p = 0
    · have hrun : zeroRun (p :: pieces) = zeroRun pieces + 1 := by simp [zeroRun, hp]
      rw [hrun, List.replicate_succ, List.cons_append, List.drop_succ_cons, ih, hp]
    · have hrun : zeroRun (p :: pieces) = 0 := by simp [zeroRun, hp]
      rw [hrun]
      rfl

/-- The place and length of a run of zeros among the pieces. -/
def IsRun (pieces : List Nat) (run : Nat × Nat) : Prop :=
  pieces.take run.1 ++ (List.replicate run.2 0 ++ pieces.drop (run.1 + run.2)) = pieces

theorem isRun_longestRun (pieces : List Nat) : IsRun pieces (longestRun pieces) := by
  have hfold : ∀ (places : List Nat) (best : Nat × Nat), IsRun pieces best →
      IsRun pieces (places.foldl
        (fun best i => let n := zeroRun (pieces.drop i); if n > best.2 then (i, n) else best) best) := by
    intro places
    induction places with
    | nil => exact fun _ hbest => hbest
    | cons i places ih =>
      intro best hbest
      refine ih _ ?_
      dsimp only
      split
      · show pieces.take i ++ (_ ++ pieces.drop (i + zeroRun (pieces.drop i))) = pieces
        rw [← List.drop_drop, replicate_zeroRun, List.take_append_drop]
      · exact hbest
  exact hfold _ _ rfl

theorem ipv6?_of_none {text : List Char} (hgap : ipv6?.gap [] text = none) :
    ipv6? text =
      (pieces? (splitColons text)).bind fun all => if all.length = 8 then some all else none := by
  simp only [ipv6?, hgap, Option.bind_eq_bind]

/-- The two sides of a gap are read each for itself. -/
theorem ipv6?_of_some {text before after : List Char} (hgap : ipv6?.gap [] text = some (before, after)) :
    ipv6? text = (side? before).bind fun front => (side? after).bind fun back =>
      if before.contains '.' || front.length + back.length > 7 then none
      else some (front ++ List.replicate (8 - front.length - back.length) 0 ++ back) := by
  have hside : ∀ (text : List Char) (f : List Nat → Option (List Nat)),
      (if text.isEmpty then (some []).bind f else (pieces? (splitColons text)).bind f) =
        (side? text).bind f := by
    intro text f
    unfold side?
    cases text.isEmpty <;> rfl
  simp only [ipv6?, hgap, Option.bind_eq_bind]
  simp only [hside]
  rfl

/-- An address that is read has eight pieces of 16 bits. -/
theorem ipv6?_pieces {text : List Char} {pieces : List Nat} (h : ipv6? text = some pieces) :
    pieces.length = 8 ∧ ∀ p ∈ pieces, p < 65536 := by
  cases hgap : ipv6?.gap [] text with
  | none =>
    rw [ipv6?_of_none hgap] at h
    obtain ⟨all, hall, h⟩ := Option.bind_eq_some_iff.1 h
    split at h
    · next hlength =>
      cases h
      exact ⟨hlength, pieces?_lt hall⟩
    · cases h
  | some sides =>
    rw [ipv6?_of_some hgap] at h
    obtain ⟨front, hfront, h⟩ := Option.bind_eq_some_iff.1 h
    obtain ⟨back, hback, h⟩ := Option.bind_eq_some_iff.1 h
    split at h
    · cases h
    · next hshort =>
      cases h
      simp only [Bool.or_eq_true, decide_eq_true_eq, not_or] at hshort
      constructor
      · simp only [List.length_append, List.length_replicate]
        omega
      · intro p hp
        simp only [List.mem_append, List.mem_replicate] at hp
        rcases hp with (hp | ⟨-, rfl⟩) | hp
        · exact side?_lt hfront p hp
        · decide
        · exact side?_lt hback p hp

/-- What stands in the brackets. -/
def insideText (pieces : List Nat) : List Char :=
  let (start, count) := longestRun pieces
  if count < 2 then piecesText pieces
  else piecesText (pieces.take start) ++ [':', ':'] ++ piecesText (pieces.drop (start + count))

theorem ipv6Text_eq (pieces : List Nat) : ipv6Text pieces = '[' :: (insideText pieces ++ [']']) := rfl

theorem ipv6?_insideText {pieces : List Nat} (hlength : pieces.length = 8)
    (h : ∀ p ∈ pieces, p < 65536) : ipv6? (insideText pieces) = some pieces := by
  have hrun := isRun_longestRun pieces
  unfold insideText
  generalize longestRun pieces = run at hrun
  obtain ⟨start, count⟩ := run
  simp only
  -- without a run there is no gap, and otherwise the run is what the gap stands for
  split
  · have hgap : ipv6?.gap [] (piecesText pieces) = none := by
      simpa [ipv6?.gap] using gap_piecesText pieces [] []
    have hne : pieces ≠ [] := by
      rintro rfl
      cases hlength
    rw [ipv6?_of_none hgap, splitColons_piecesText hne, pieces?_toDigits h, Option.bind_some,
      if_pos hlength]
  · next hcount =>
    have hgap : ipv6?.gap []
        (piecesText (pieces.take start) ++ [':', ':'] ++ piecesText (pieces.drop (start + count))) =
        some (piecesText (pieces.take start), piecesText (pieces.drop (start + count))) := by
      rw [List.append_assoc, gap_piecesText]
      simp [ipv6?.gap]
    have hfront : ∀ p ∈ pieces.take start, p < 65536 := fun p hp => h p (List.mem_of_mem_take hp)
    have hback : ∀ p ∈ pieces.drop (start + count), p < 65536 := fun p hp =>
      h p (List.mem_of_mem_drop hp)
    have hdot : (piecesText (pieces.take start)).contains '.' = false := by
      rw [List.contains_eq_mem, decide_eq_false_iff_not]
      intro hdot
      rcases mem_piecesText hdot with hdot | ⟨p, hdot⟩
      · cases hdot
      · exact hexDigit_ne hdot (by decide) rfl
    have hlengths : (pieces.take start).length +
        (count + (pieces.drop (start + count)).length) = 8 := by
      have := congrArg List.length hrun
      rwa [List.length_append, List.length_append, List.length_replicate, hlength] at this
    have hshort : (pieces.take start).length + (pieces.drop (start + count)).length ≤ 7 := by omega
    rw [ipv6?_of_some hgap, side?_piecesText hfront, Option.bind_some, side?_piecesText hback,
      Option.bind_some, hdot, Bool.false_or,
      if_neg (by simpa only [decide_eq_true_eq] using Nat.not_lt.2 hshort),
      show 8 - (pieces.take start).length - (pieces.drop (start + count)).length = count by omega,
      List.append_assoc]
    exact congrArg some hrun

end Telebridge.Url
