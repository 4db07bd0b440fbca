import Telebridge.Json.Reader
import Telebridge.Json.Writer
import Telebridge.Proofs.Text.Numeral
set_option autoImplicit false

/-! # Reading back JSON

What the writer writes is read back. Strings are read back character by character
(`Text.value?_ofString`, `Text.Sound`), numbers as long as a delimiter follows them, arrays and objects
part by part. `Sound` values are those that the writer has a text of their own for: `value?_write` reads
one at the front of any input, and `ofString?_toText` as a whole text. -/

namespace Telebridge.Json

/-! ## Strings -/

/-- A character is written as a short escape, as a numbered escape, or as itself. -/
theorem escapeChar_cases (c : Char) :
    (∃ e, escapeChar c = ['\\', e] ∧ shortEscape? e = some c ∧ e ≠ 'u') ∨
    (c.toNat < 0x20 ∧
      escapeChar c = ['\\', 'u', '0', '0', hexDigit (c.toNat / 16), hexDigit c.toNat]) ∨
    (escapeChar c = [c] ∧ c ≠ '"' ∧ c ≠ '\\' ∧ ¬ c.toNat < 0x20) := by
  unfold escapeChar
  split
  · exact .inl ⟨'"', rfl, rfl, by decide⟩
  · exact .inl ⟨'\\', rfl, rfl, by decide⟩
  · exact .inl ⟨'b', rfl, rfl, by decide⟩
  · exact .inl ⟨'f', rfl, rfl, by decide⟩
  · exact .inl ⟨'n', rfl, rfl, by decide⟩
  · exact .inl ⟨'r', rfl, rfl, by decide⟩
  · exact .inl ⟨'t', rfl, rfl, by decide⟩
  · next hquote hslash _ _ _ _ _ =>
    by_cases hc : c.toNat < 0x20
    · exact .inr (.inl ⟨hc, if_pos hc⟩)
    · exact .inr (.inr ⟨if_neg hc, hquote, hslash, hc⟩)

theorem escapeChar_eq_self {c : Char} (hquote : c ≠ '"') (hslash : c ≠ '\\')
    (hc : 0x20 ≤ c.toNat) : escapeChar c = [c] := by
  unfold escapeChar
  split
  · exact absurd rfl hquote
  · exact absurd rfl hslash
  · exact absurd hc (by decide)
  · exact absurd hc (by decide)
  · exact absurd hc (by decide)
  · exact absurd hc (by decide)
  · exact absurd hc (by decide)
  · exact if_neg (by omega)

/-- The digits of a numbered escape. -/
theorem hex4?_hexDigit {n : Nat} (h : n < 0x20) :
    hex4? (some '0') (some '0') (some (hexDigit (n / 16))) (some (hexDigit n)) = some n :=
  (by decide : ∀ n < 0x20, hex4? (some '0') (some '0') (some (hexDigit (n / 16)))
    (some (hexDigit n)) = some n) n h

theorem unescape?_escapeChar (c : Char) (rest : List Symbol) :
    unescape? ((escapeChar c).map some ++ rest) = (unescape? rest).map (c :: ·) := by
  obtain ⟨e, hesc, he, hu⟩ | ⟨hc, hesc⟩ | ⟨hesc, hquote, hslash, hc⟩ := escapeChar_cases c
  · simp [hesc, unescape?, he, hu]
  · have hplain : ¬ (0xD800 ≤ c.toNat ∧ c.toNat ≤ 0xDBFF) ∧
        ¬ (0xDC00 ≤ c.toNat ∧ c.toNat ≤ 0xDFFF) := by omega
    simp only [hesc, List.map_cons, List.map_nil, List.cons_append, List.nil_append, unescape?,
      hex4?_hexDigit hc, Option.bind_eq_bind, Option.bind_some, if_neg hplain.1, if_neg hplain.2,
      Char.ofNat_toNat]
  · simp [hesc, unescape?, hslash]

/-- A text is what its string means. -/
theorem Text.value?_ofString (s : String) : (Text.ofString s).value? = some s := by
  have hread (cs : List Char) : unescape? ((cs.flatMap escapeChar).map some) = some cs := by
    induction cs with
    | nil => rfl
    | cons c cs ih =>
      rw [List.flatMap_cons, List.map_append, unescape?_escapeChar, ih, Option.map_some]
  rw [Text.value?, Text.ofString, hread, Option.map_some, String.ofList_toList]

/-- A string that the reader takes as it stands up to its closing quote. -/
structure Text.Sound (t : Text) : Prop where
  isSome : ∀ c ∈ t.raw, c.isSome
  read : ∀ rest, string? (t.raw ++ some '"' :: rest) = some (t.raw, rest)

theorem string?_escapeChar (c : Char) (rest : List Symbol) :
    string? ((escapeChar c).map some ++ rest) =
      (string? rest).map fun r => ((escapeChar c).map some ++ r.1, r.2) := by
  obtain ⟨e, hesc, he, hu⟩ | ⟨hc, hesc⟩ | ⟨hesc, hquote, hslash, hc⟩ := escapeChar_cases c
  · simp only [hesc, List.map_cons, List.map_nil, List.cons_append, List.nil_append]
    rw [string?]
    · simp only [he, Option.bind_eq_bind, Option.bind_some]
      cases string? rest <;> rfl
    · exact fun _ _ _ _ _ _ => hu
  · simp only [hesc, List.map_cons, List.map_nil, List.cons_append, List.nil_append, string?,
      hex4?_hexDigit hc, Option.bind_eq_bind, Option.bind_some]
    cases string? rest <;> rfl
  · simp only [hesc, List.map_cons, List.map_nil, List.cons_append, List.nil_append]
    rw [string?, if_neg hc]
    all_goals simp [hquote, hslash]

theorem Text.sound_ofString (s : String) : (Text.ofString s).Sound := by
  refine ⟨fun c hc => ?_, fun rest => ?_⟩
  · obtain ⟨d, -, rfl⟩ := List.mem_map.1 hc
    rfl
  have hread (cs : List Char) : string? ((cs.flatMap escapeChar).map some ++ some '"' :: rest) =
      some ((cs.flatMap escapeChar).map some, rest) := by
    induction cs with
    | nil => rfl
    | cons c cs ih =>
      rw [List.flatMap_cons, List.map_append, List.append_assoc, string?_escapeChar, ih,
        Option.map_some]
  exact hread s.toList

/-- What is written between the quotes. -/
theorem Text.Sound.map_write {t : Text} (h : t.Sound) :
    t.write.map some = some '"' :: (t.raw ++ [some '"']) := by
  have hraw : (t.raw.map fun c => c.getD '\uFFFD').map some = t.raw := by
    rw [List.map_map]
    refine (List.map_congr_left fun c hc => ?_).trans (List.map_id _)
    obtain ⟨x, rfl⟩ := Option.isSome_iff_exists.1 (h.isSome c hc)
    rfl
  simp [Text.write, hraw]

/-! ## Numbers -/

/-- A numeral is made of digits and a sign, so it needs no escapes. -/
theorem Text.raw_showInt (n : Int) :
    (Text.ofString (Text.showInt n)).raw = (Text.intDigits n).map some := by
  have hdigit {c : Char} (h : c.isDigit = true) : escapeChar c = [c] := by
    have hle : 48 ≤ c.toNat := by
      simp only [Char.isDigit, Bool.and_eq_true, decide_eq_true_eq] at h
      exact h.1
    refine escapeChar_eq_self ?_ ?_ (by omega)
    · rintro rfl
      cases h
    · rintro rfl
      cases h
  have hsign : ∀ c ∈ Text.intDigits n, escapeChar c = [c] := by
    intro c hc
    unfold Text.intDigits at hc
    split at hc
    · obtain rfl | hc := List.mem_cons.1 hc
      · rfl
      · exact hdigit (Text.isDigit_natDigits _ c hc)
    · exact hdigit (Text.isDigit_natDigits _ c hc)
  have hflat : (Text.intDigits n).flatMap escapeChar = Text.intDigits n := by
    rw [List.flatMap_def, List.map_congr_left hsign, ← List.flatMap_def, List.flatMap_singleton']
  rw [Text.ofString, Text.showInt, String.toList_ofList, hflat]

/-- Only zero begins with a zero. -/
theorem head?_natDigits {n : Nat} (h : 0 < n) : (Text.natDigits n).head? ≠ some '0' := by
  induction n using Nat.strongRecOn with
  | ind n ih =>
    rw [Text.natDigits, Nat.toDigits_eq_if (by decide)]
    split
    · next hn =>
      have hdigit : ∀ n < 10, 0 < n → Nat.digitChar n ≠ '0' := by decide
      simpa using hdigit n hn h
    · have hhead := ih (n / 10) (by omega) (by omega)
      cases hds : Nat.toDigits 10 (n / 10) with
      | nil => exact absurd hds Nat.toDigits_ne_nil
      | cons c cs =>
        rw [Text.natDigits, hds] at hhead
        simpa using hhead

/-- The end of the input, or a sign that follows a value inside an array or an object. -/
def Delimited (rest : List Symbol) : Prop :=
  rest = [] ∨ ∃ c rest', rest = some c :: rest' ∧ (c = ',' ∨ c = ']' ∨ c = '\x7d')

theorem digits_append {ds : List Char} (hds : ∀ c ∈ ds, c.isDigit = true) {rest : List Symbol}
    (h : Delimited rest) : digits (ds.map some ++ rest) = (ds, rest) := by
  have hall : ∀ c ∈ ds.map some, isDigit c = true := by
    intro c hc
    obtain ⟨d, hd, rfl⟩ := List.mem_map.1 hc
    exact hds d hd
  have hstop : rest.takeWhile isDigit = [] ∧ rest.dropWhile isDigit = rest := by
    obtain rfl | ⟨c, rest', rfl, rfl | rfl | rfl⟩ := h
    · exact ⟨rfl, rfl⟩
    · exact ⟨rfl, rfl⟩
    · exact ⟨rfl, rfl⟩
    · exact ⟨rfl, rfl⟩
  rw [digits, List.takeWhile_append_of_pos hall, List.dropWhile_append_of_pos hall, hstop.1,
    hstop.2]
  simp

theorem number?_natDigits {negative : Bool} {n : Nat} (hn : negative = true → 0 < n)
    {rest : List Symbol} (h : Delimited rest) :
    number? negative ((Text.natDigits n).map some ++ rest) =
      some (.integer (if negative then -(n : Int) else n), rest) := by
  have hwhole : ((Text.natDigits n).isEmpty ||
      ((Text.natDigits n).head? = some '0' && (Text.natDigits n).length > 1 : Bool)) = false := by
    have hempty : (Text.natDigits n).isEmpty = false := by
      simpa using Text.natDigits_ne_nil n
    rw [hempty, Bool.false_or]
    obtain rfl | hpos := Nat.eq_zero_or_pos n
    · rfl
    · simp [head?_natDigits hpos]
  have hdecimals : decimals? rest = some ([], rest) := by
    obtain rfl | ⟨c, rest', rfl, rfl | rfl | rfl⟩ := h <;> rfl
  have hpower : power? rest = some ([], rest) := by
    obtain rfl | ⟨c, rest', rfl, rfl | rfl | rfl⟩ := h <;> rfl
  have hvalue : Nat.ofDigitChars 10 (Text.natDigits n) 0 = n := Nat.ofDigitChars_ten_toDigits
  have hzero : (negative && decide (n = 0)) = false := by
    cases negative with
    | false => rfl
    | true =>
      have := hn rfl
      simp
      omega
  rw [number?, digits_append (Text.isDigit_natDigits n) h]
  simp only [hwhole, hdecimals, hpower, hvalue, hzero, Bool.false_eq_true, if_false,
    Option.bind_eq_bind, Option.bind_some, List.isEmpty_nil, Bool.not_false, Bool.and_self, if_true]

/-! ## Values -/

/-- A value that has a text of its own: numbers are integers, and strings can be read. -/
inductive Sound : Json → Prop
  | null : Sound .null
  | bool (b : Bool) : Sound (.bool b)
  | integer (n : Int) : Sound (.integer n)
  | text {t : Text} (h : t.Sound) : Sound (.text t)
  | array {items : List Json} (h : ∀ v ∈ items, Sound v) : Sound (.array items)
  | object {fields : List (Text × Json)} (hkey : ∀ f ∈ fields, f.1.Sound)
      (hvalue : ∀ f ∈ fields, Sound f.2) : Sound (.object fields)

theorem skipBlanks_cons {c : Char} (h : isBlank (some c) = false) (rest : List Symbol) :
    skipBlanks (some c :: rest) = some c :: rest := by
  simp [skipBlanks, h]

theorem isBlank_digit {c : Char} (h : c.isDigit = true) : isBlank (some c) = false := by
  have hne (d : Char) (hd : d.isDigit = false) : c ≠ d := by
    rintro rfl
    rw [h] at hd
    cases hd
  simp [isBlank, hne ' ' (by decide), hne '\n' (by decide), hne '\t' (by decide),
    hne '\r' (by decide)]

/-- A digit begins a number. -/
theorem value?_digit {c : Char} (h : c.isDigit = true) (fuel : Nat) (rest : List Symbol) :
    value? (fuel + 1) (some c :: rest) = number? false (some c :: rest) := by
  rw [value?, skipBlanks_cons (isBlank_digit h)]
  split
  all_goals
    first
    | rfl
    | next heq =>
      simp only [List.cons.injEq, Option.some.injEq] at heq
      obtain ⟨rfl, -⟩ := heq
      cases h

theorem value?_intDigits (n : Int) (fuel : Nat) {rest : List Symbol} (h : Delimited rest) :
    value? (fuel + 1) ((Text.intDigits n).map some ++ rest) = some (.integer n, rest) := by
  unfold Text.intDigits
  split
  · next hn =>
    have hread : number? true ((Text.natDigits n.natAbs).map some ++ rest) =
        some (.integer n, rest) := by
      rw [number?_natDigits (by omega) h, if_pos rfl, show -(n.natAbs : Int) = n by omega]
    exact hread
  · next hn =>
    have hread : number? false ((Text.natDigits n.natAbs).map some ++ rest) =
        some (.integer n, rest) := by
      rw [number?_natDigits (by simp) h, if_neg (by decide), show (n.natAbs : Int) = n by omega]
    cases hds : Text.natDigits n.natAbs with
    | nil => exact absurd hds (Text.natDigits_ne_nil _)
    | cons d ds =>
      have hd := Text.isDigit_natDigits n.natAbs d (hds ▸ List.mem_cons_self)
      rw [hds] at hread
      rw [← hread]
      exact value?_digit hd fuel _

/-- A value begins with a sign that is neither a blank nor a closing bracket. -/
theorem write_cons {v : Json} (h : v.Sound) :
    ∃ c cs, v.write = c :: cs ∧ isBlank (some c) = false ∧ c ≠ ']' := by
  cases h with
  | null => exact ⟨'n', _, rfl, rfl, by decide⟩
  | bool b =>
    cases b with
    | true => exact ⟨'t', _, rfl, rfl, by decide⟩
    | false => exact ⟨'f', _, rfl, rfl, by decide⟩
  | integer n =>
    rw [write, Text.intDigits]
    split
    · exact ⟨'-', _, rfl, rfl, by decide⟩
    · cases hds : Text.natDigits n.natAbs with
      | nil => exact absurd hds (Text.natDigits_ne_nil _)
      | cons d ds =>
        have hd := Text.isDigit_natDigits n.natAbs d (hds ▸ List.mem_cons_self)
        refine ⟨d, ds, rfl, isBlank_digit hd, ?_⟩
        rintro rfl
        cases hd
  | text h => exact ⟨'"', _, rfl, rfl, by decide⟩
  | array h => exact ⟨'[', _, rfl, rfl, by decide⟩
  | object hkey hvalue => exact ⟨'\x7b', _, rfl, rfl, by decide⟩

/-- So do the items of an array. -/
theorem writeItems_cons {v : Json} (h : v.Sound) (items : List Json) :
    ∃ c cs, writeItems (v :: items) = c :: cs ∧ isBlank (some c) = false ∧ c ≠ ']' := by
  obtain ⟨c, cs, hcs, hblank, hne⟩ := write_cons h
  cases items with
  | nil => exact ⟨c, cs, by rw [writeItems, hcs], hblank, hne⟩
  | cons w items =>
    rw [writeItems.eq_3 v (w :: items) (by simp), hcs]
    exact ⟨c, _, rfl, hblank, hne⟩

/-- The fields of an object begin with a quote. -/
theorem writeFields_cons (f : Text × Json) (fields : List (Text × Json)) :
    ∃ cs, writeFields (f :: fields) = '"' :: cs := by
  obtain ⟨k, v⟩ := f
  cases fields with
  | nil => exact ⟨_, rfl⟩
  | cons g fields =>
    rw [writeFields.eq_3 k v (g :: fields) (by simp)]
    exact ⟨_, rfl⟩

/-- The value is read at the front of any input in which a delimiter follows. -/
def ReadBack (v : Json) : Prop :=
  ∀ fuel rest, v.write.length ≤ fuel → Delimited rest →
    value? fuel (v.write.map some ++ rest) = some (v, rest)

theorem items?_write {items : List Json} (h : ∀ v ∈ items, ReadBack v) (hne : items ≠ [])
    (fuel : Nat) (rest : List Symbol) (hfuel : (writeItems items).length < fuel) :
    items? fuel ((writeItems items).map some ++ some ']' :: rest) = some (items, rest) := by
  induction items generalizing fuel with
  | nil => exact absurd rfl hne
  | cons v items ih =>
    obtain ⟨fuel, rfl⟩ : ∃ k, fuel = k + 1 := ⟨fuel - 1, by omega⟩
    have hv := h v List.mem_cons_self
    cases items with
    | nil =>
      simp only [writeItems] at hfuel ⊢
      rw [items?, hv fuel _ (by omega) (.inr ⟨_, _, rfl, .inr (.inl rfl)⟩)]
      rfl
    | cons w items =>
      have hitems := ih (fun v hv => h v (List.mem_cons_of_mem _ hv)) (by simp) fuel
      rw [writeItems.eq_3 v (w :: items) (by simp)] at hfuel ⊢
      rw [List.length_append, List.length_cons] at hfuel
      rw [List.map_append, List.append_assoc, List.map_cons, List.cons_append, items?,
        hv fuel _ (by omega) (.inr ⟨_, _, rfl, .inl rfl⟩)]
      simp only [Option.bind_eq_bind, Option.bind_some, skipBlanks_cons (c := ',') rfl,
        hitems (by omega)]

/-- A field is written as its key, a colon and its value. -/
theorem fields?_cons {k : Text} {v : Json} (hk : k.Sound) (hv : ReadBack v) {fuel : Nat}
    {rest : List Symbol} (hfuel : v.write.length ≤ fuel) (h : Delimited rest) :
    fields? (fuel + 1) (k.write.map some ++ some ':' :: (v.write.map some ++ rest)) =
      match skipBlanks rest with
      | some ',' :: rest' => (fields? fuel rest').map fun r => ((k, v) :: r.1, r.2)
      | some '\x7d' :: rest' => some ([(k, v)], rest')
      | _ => none := by
  rw [hk.map_write, List.cons_append, List.append_assoc, List.singleton_append, fields?,
    skipBlanks_cons (c := '"') rfl]
  simp only [hk.read, Option.bind_eq_bind, Option.bind_some, skipBlanks_cons (c := ':') rfl,
    hv fuel rest hfuel h]
  obtain rfl | ⟨c, rest', rfl, rfl | rfl | rfl⟩ := h
  · rfl
  · cases hfields : fields? fuel rest' <;> simp [skipBlanks_cons (c := ',') rfl, hfields]
  · rfl
  · rfl

theorem fields?_write {fields : List (Text × Json)} (hkey : ∀ f ∈ fields, f.1.Sound)
    (hvalue : ∀ f ∈ fields, ReadBack f.2) (hne : fields ≠ []) (fuel : Nat) (rest : List Symbol)
    (hfuel : (writeFields fields).length < fuel) :
    fields? fuel ((writeFields fields).map some ++ some '\x7d' :: rest) = some (fields, rest) := by
  induction fields generalizing fuel with
  | nil => exact absurd rfl hne
  | cons f fields ih =>
    obtain ⟨fuel, rfl⟩ : ∃ k, fuel = k + 1 := ⟨fuel - 1, by omega⟩
    obtain ⟨k, v⟩ := f
    have hk : k.Sound := hkey (k, v) List.mem_cons_self
    have hv : ReadBack v := hvalue (k, v) List.mem_cons_self
    cases fields with
    | nil =>
      simp only [writeFields, List.length_append, List.length_cons] at hfuel
      simp only [writeFields, List.map_append, List.map_cons, List.append_assoc, List.cons_append]
      rw [fields?_cons hk hv (by omega) (.inr ⟨_, _, rfl, .inr (.inr rfl)⟩)]
      rfl
    | cons g fields =>
      have hfields := ih (fun f hf => hkey f (List.mem_cons_of_mem _ hf))
        (fun f hf => hvalue f (List.mem_cons_of_mem _ hf)) (by simp) fuel
      rw [writeFields.eq_3 k v (g :: fields) (by simp)] at hfuel ⊢
      simp only [List.length_append, List.length_cons] at hfuel
      simp only [List.map_append, List.map_cons, List.append_assoc, List.cons_append]
      rw [fields?_cons hk hv (by omega) (.inr ⟨_, _, rfl, .inl rfl⟩),
        skipBlanks_cons (c := ',') rfl]
      simp only [hfields (by omega), Option.map_some]

/-- An array with something in it. -/
theorem value?_bracket {c : Char} (hblank : isBlank (some c) = false) (hne : c ≠ ']') (fuel : Nat)
    (rest : List Symbol) : value? (fuel + 1) (some '[' :: some c :: rest) =
      (items? fuel (some c :: rest)).map fun r => (.array r.1, r.2) := by
  simp only [value?, skipBlanks_cons (c := '[') rfl, skipBlanks_cons hblank]
  split
  · next heq =>
    simp only [List.cons.injEq, Option.some.injEq] at heq
    exact absurd heq.1 hne
  · rfl

/-- An object with something in it. -/
theorem value?_brace (fuel : Nat) (rest : List Symbol) :
    value? (fuel + 1) (some '\x7b' :: some '"' :: rest) =
      (fields? fuel (some '"' :: rest)).map fun r => (.object r.1, r.2) := rfl

/-- A sound value is read back. -/
theorem value?_write {v : Json} (h : v.Sound) : ReadBack v := by
  have hpos {v : Json} (hv : v.Sound) {fuel : Nat} (h : v.write.length ≤ fuel) :
      ∃ k, fuel = k + 1 := by
    obtain ⟨c, cs, hcs, -⟩ := write_cons hv
    rw [hcs, List.length_cons] at h
    exact ⟨fuel - 1, by omega⟩
  induction h with
  | null =>
    intro fuel rest hfuel _
    obtain ⟨fuel, rfl⟩ := hpos .null hfuel
    rfl
  | bool b =>
    intro fuel rest hfuel _
    obtain ⟨fuel, rfl⟩ := hpos (.bool b) hfuel
    cases b <;> rfl
  | integer n =>
    intro fuel rest hfuel h
    obtain ⟨fuel, rfl⟩ := hpos (.integer n) hfuel
    exact value?_intDigits n fuel h
  | text ht =>
    intro fuel rest hfuel _
    obtain ⟨fuel, rfl⟩ := hpos (.text ht) hfuel
    rw [write, ht.map_write, List.cons_append, List.append_assoc, List.singleton_append, value?,
      skipBlanks_cons (c := '"') rfl]
    simp only [ht.read, Option.map_some]
  | @array items hitems ih =>
    intro fuel rest hfuel _
    obtain ⟨fuel, rfl⟩ := hpos (.array hitems) hfuel
    simp only [write, List.cons_append, List.map_cons, List.map_append, List.map_nil,
      List.append_assoc, List.nil_append, List.length_cons, List.length_append] at hfuel ⊢
    cases items with
    | nil => rfl
    | cons v items =>
      obtain ⟨c, cs, hcs, hblank, hne⟩ := writeItems_cons (hitems v List.mem_cons_self) items
      have hread := items?_write ih (by simp) fuel rest (by omega)
      rw [hcs, List.map_cons, List.cons_append] at hread ⊢
      rw [value?_bracket hblank hne, hread, Option.map_some]
  | @object fields hkey hvalue ih =>
    intro fuel rest hfuel _
    obtain ⟨fuel, rfl⟩ := hpos (.object hkey hvalue) hfuel
    simp only [write, List.cons_append, List.map_cons, List.map_append, List.map_nil,
      List.append_assoc, List.nil_append, List.length_cons, List.length_append] at hfuel ⊢
    cases fields with
    | nil => rfl
    | cons f fields =>
      obtain ⟨cs, hcs⟩ := writeFields_cons f fields
      have hread := fields?_write hkey ih (by simp) fuel rest (by omega)
      rw [hcs, List.map_cons, List.cons_append] at hread ⊢
      rw [value?_brace, hread, Option.map_some]

/-- A text that was written for a value means that value. -/
theorem ofSymbols?_write {v : Json} (h : v.Sound) : ofSymbols? (v.write.map some) = some v := by
  have hread := value?_write h (v.write.length + 1) [] (by omega) (.inl rfl)
  rw [List.append_nil] at hread
  rw [ofSymbols?, List.length_map, hread]
  rfl

theorem ofString?_toText {v : Json} (h : v.Sound) : ofString? v.toText = some v := by
  rw [ofString?, toText, String.toList_ofList, ofSymbols?_write h]

end Telebridge.Json
