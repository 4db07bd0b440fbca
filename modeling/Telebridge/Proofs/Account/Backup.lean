import Telebridge.Account.Backup
import Telebridge.Proofs.Data.Table
import Telebridge.Proofs.Encoding.Base64
import Telebridge.Proofs.Encoding.Utf8
import Telebridge.Proofs.Json.Record
set_option autoImplicit false

/-! # Reading back backups

The stored form of logout tokens and of access hashes is read back, with any padding put behind it:
tokens in their order, as many as an account keeps (`toTokens_stored`), and hashes as the table of their
list (`toHashes_stored`), whatever the order in which they were written (`stored_hashes_any_order`).
Nothing is stored for the empty list, and nothing is what the empty text stands for. -/

namespace Telebridge.Backup

/-- Padding that may be put behind a stored form. -/
def pad (count : Nat) : String :=
  String.ofList (List.replicate count '=')

/-! ## The wrapping -/

theorem unwrap_wrap_append {v : Json} (h : v.Sound) (count : Nat) :
    unwrap (wrap v ++ pad count) = .ok v := by
  have hbytes := Base64.decodeStripped?_append Base64.proper_urlSafe
    (Utf8.encode v.toText).data.toList count
  have hvalue : Json.ofSymbols? (Utf8.scan (Utf8.encode v.toText).data.toList) = some v := by
    rw [Utf8.scan_encode, Json.toText, String.toList_ofList, Json.ofSymbols?_write h]
  simp only [unwrap, wrap, pad, String.toList_append, String.toList_ofList, hbytes, hvalue]
  rfl

/-- Something is stored for every value. -/
theorem wrap_append_ne_empty {v : Json} (h : v.Sound) (count : Nat) :
    (wrap v ++ pad count).isEmpty = false := by
  have hread := unwrap_wrap_append h count
  cases hempty : (wrap v ++ pad count).isEmpty with
  | false => rfl
  | true =>
    have hnone : unwrap "" = .error .json := by
      have hbytes : Base64.decodeStripped? Base64.urlSafe "".toList = some [] := rfl
      simp only [unwrap, hbytes, Utf8.scan]
      rfl
    rw [String.isEmpty_iff.1 hempty, hnone] at hread
    cases hread

theorem isUrlSafe_of_mem_wrap {v : Json} {c : Char} (hc : c ∈ (wrap v).toList) :
    Base64.isUrlSafe c := by
  rw [wrap, String.toList_ofList] at hc
  exact Base64.isUrlSafe_of_mem_encode hc

/-! ## Logout tokens -/

theorem token?_tokenText (token : ByteArray) : token? (tokenText token) = some token := by
  rw [token?, tokenText, String.toList_ofList,
    Base64.decodePadded?_encodePadded Base64.proper_standard]
  rfl

/-- The record of some tokens. -/
def tokenRecord (tokens : List ByteArray) : Json :=
  Json.obj [("tokens", .array (tokens.map fun t => Json.str (tokenText t)))]

/-- The texts in the record. -/
theorem tokenRecord_eq (tokens : List ByteArray) :
    tokenRecord tokens =
      Json.ofFields [("tokens", some (.array ((tokens.map tokenText).map Json.str)))] := by
  rw [List.map_map]
  rfl

theorem sound_tokenRecord (tokens : List ByteArray) : (tokenRecord tokens).Sound := by
  rw [tokenRecord_eq]
  refine Json.sound_ofFields fun f hf => ?_
  obtain rfl := List.mem_singleton.1 hf
  exact (Json.faithful_str.list.required (tokens.map tokenText)).sound

theorem tokenTexts?_tokenRecord (tokens : List ByteArray) :
    tokenTexts? (tokenRecord tokens) = some (tokens.map tokenText) := by
  have htexts := Json.faithful_str.list.optional [] (tokens.map tokenText)
  have hrecord (v : Json) : Json.record? ["tokens"] (Json.ofFields [("tokens", some v)]) =
      some [some v] :=
    Json.record?_ofFields (List.nodup_singleton "tokens")
  rw [tokenRecord_eq, tokenTexts?, hrecord]
  exact htexts.read_eq

theorem eq_wrap_of_ofTokens {tokens : List ByteArray} {text : String}
    (h : ofTokens tokens = some text) : wrap (tokenRecord tokens) = text := by
  unfold ofTokens at h
  split at h
  · cases h
  · exact Option.some.inj h

/-- Stored tokens are read back in their order, but no more than an account keeps. -/
theorem toTokens_stored {tokens : List ByteArray} {text : String} (h : ofTokens tokens = some text)
    (count : Nat) : toTokens (text ++ pad count) = .ok (tokens.take LoginFlow.maxTokens) := by
  have htokens : ((tokens.map tokenText).take LoginFlow.maxTokens).mapM token? =
      some (tokens.take LoginFlow.maxTokens) := by
    rw [← List.map_take]
    exact Json.mapM_map_eq_some token?_tokenText _
  obtain rfl := eq_wrap_of_ofTokens h
  have hempty := wrap_append_ne_empty (sound_tokenRecord tokens) count
  have hread := unwrap_wrap_append (sound_tokenRecord tokens) count
  simp only [toTokens, hempty, hread, tokenTexts?_tokenRecord, htokens, bind, Except.bind]
  rfl

theorem ofTokens_eq_none {tokens : List ByteArray} (h : ofTokens tokens = none) : tokens = [] := by
  unfold ofTokens at h
  split at h
  · next hempty => exact List.isEmpty_iff.1 hempty
  · cases h

/-- Nothing is stored for no tokens only. What is stored is made of letters, digits, hyphens and
underscores, and with any padding behind it stands for the first twenty tokens in their order. -/
theorem stored_tokens_first_twenty (tokens : List ByteArray) :
    (ofTokens tokens = none ↔ tokens = []) ∧
    ∀ text, ofTokens tokens = some text →
      (∀ c ∈ text.toList, Base64.isUrlSafe c ∧ c ≠ '=') ∧
      ∀ count, toTokens (text ++ pad count) = .ok (tokens.take 20) := by
  refine ⟨⟨ofTokens_eq_none, ?_⟩, ?_⟩
  · rintro rfl
    rfl
  · intro text htext
    refine ⟨fun c hc => ?_, toTokens_stored htext⟩
    obtain rfl := eq_wrap_of_ofTokens htext
    have hsafe := isUrlSafe_of_mem_wrap hc
    refine ⟨hsafe, ?_⟩
    rintro rfl
    cases hsafe

/-- A token of three bytes and an empty one. -/
theorem stored_tokens_first_twenty_two :
    ofTokens [⟨#[1, 2, 255]⟩, ⟨#[]⟩] = some "eyJ0b2tlbnMiOlsiQVFMLyIsIiJdfQ" ∧
    (∀ c ∈ "eyJ0b2tlbnMiOlsiQVFMLyIsIiJdfQ".toList, Base64.isUrlSafe c ∧ c ≠ '=') ∧
    ∀ count, toTokens ("eyJ0b2tlbnMiOlsiQVFMLyIsIiJdfQ" ++ pad count) =
      .ok [⟨#[1, 2, 255]⟩, ⟨#[]⟩] := by
  have htext : ofTokens [⟨#[1, 2, 255]⟩, ⟨#[]⟩] = some "eyJ0b2tlbnMiOlsiQVFMLyIsIiJdfQ" := by
    decide +kernel
  exact ⟨htext, (stored_tokens_first_twenty _).2 _ htext⟩

/-! ## Access hashes -/

theorem key?_showInt64 (id : Int64) : key? (Json.Text.ofString (Text.showInt64 id)) = some id := by
  have hread : Json.ofSymbols? ((Text.intDigits id.toInt).map some) = some (.integer id.toInt) :=
    Json.ofSymbols?_write (.integer id.toInt)
  simp only [key?, Text.showInt64, Json.Text.raw_showInt, hread, if_true, Text.fitInt64?_toInt]

/-- The record of some access hashes. -/
def hashRecord (users : List (Int64 × Int64)) : Json :=
  Json.obj (users.map fun e => (Text.showInt64 e.1, .integer e.2.toInt))

theorem sound_hashRecord (users : List (Int64 × Int64)) : (hashRecord users).Sound := by
  refine Json.sound_obj fun f hf => ?_
  obtain ⟨e, -, rfl⟩ := List.mem_map.1 hf
  exact .integer e.2.toInt

theorem hashes?_hashRecord (users : List (Int64 × Int64)) :
    hashes? (hashRecord users) = some (Table.ofList users) := by
  have hread (e : Int64 × Int64) :
      hash? (Json.Text.ofString (Text.showInt64 e.1), .integer e.2.toInt) = some e := by
    simp only [hash?, key?_showInt64, Json.asInt64?, Text.fitInt64?_toInt, Option.bind_eq_bind,
      Option.bind_some]
    rfl
  simp only [hashRecord, Json.obj, hashes?, List.map_map, Function.comp_def,
    Json.mapM_map_eq_some hread users, Option.map_some]

theorem eq_wrap_of_ofHashes {users : List (Int64 × Int64)} {text : String}
    (h : ofHashes users = some text) : wrap (hashRecord users) = text := by
  unfold ofHashes at h
  split at h
  · cases h
  · exact Option.some.inj h

/-- Stored access hashes are read back; of two for one id the later counts. -/
theorem toHashes_stored {users : List (Int64 × Int64)} {text : String}
    (h : ofHashes users = some text) (count : Nat) :
    toHashes (text ++ pad count) = .ok (Table.ofList users) := by
  obtain rfl := eq_wrap_of_ofHashes h
  have hempty := wrap_append_ne_empty (sound_hashRecord users) count
  have hread := unwrap_wrap_append (sound_hashRecord users) count
  simp only [toHashes, hempty, Bool.false_eq_true, if_false, hread, hashes?_hashRecord, bind,
    Except.bind]
  rfl

theorem ofHashes_eq_none_iff {users : List (Int64 × Int64)} : ofHashes users = none ↔ users = [] := by
  unfold ofHashes
  by_cases h : users = []
  · simp [h]
  · simp [h]

/-- What is stored of access hashes is read back, also if there are none. -/
theorem toHashes_ofHashes (users : List (Int64 × Int64)) :
    toHashes ((ofHashes users).getD "") = .ok (Table.ofList users) := by
  cases h : ofHashes users with
  | none =>
    obtain rfl := ofHashes_eq_none_iff.1 h
    rfl
  | some text =>
    have hread := toHashes_stored h 0
    rwa [show text ++ pad 0 = text from String.append_empty] at hread

/-- The hashes of a table are stored in any order of its entries, and read back as the same table, with
any padding behind them. Nothing is stored for the empty table only, which the empty text stands for,
and no padding is written. -/
theorem stored_hashes_any_order (m : Table Int64 Int64) {entries : List (Int64 × Int64)}
    (hperm : entries.Perm m.toList) :
    (ofHashes entries = none ↔ m = Table.empty) ∧
    (∀ text, ofHashes entries = some text → '=' ∉ text.toList) ∧
    ∀ count, ∃ users, toHashes (((ofHashes entries).map (· ++ pad count)).getD "") = .ok users ∧
      users.toList.Perm m.toList ∧ ∀ id, users.get? id = m.get? id := by
  have hnodup : (entries.map Prod.fst).Nodup := (hperm.map Prod.fst).nodup_iff.2 m.nodup
  have hempty : ofHashes entries = none ↔ m = Table.empty := by
    rw [ofHashes_eq_none_iff, ← Table.isEmpty_iff, Table.isEmpty, List.isEmpty_iff]
    constructor
    · rintro rfl
      exact List.nil_perm.1 hperm
    · intro hm
      exact List.perm_nil.1 (hm ▸ hperm)
  refine ⟨hempty, ?_, ?_⟩
  · intro text htext hpad
    obtain rfl := eq_wrap_of_ofHashes htext
    cases isUrlSafe_of_mem_wrap hpad
  · intro count
    refine ⟨Table.ofList entries, ?_, ?_, ?_⟩
    · cases htext : ofHashes entries with
      | none =>
        obtain rfl := ofHashes_eq_none_iff.1 htext
        rfl
      | some text => exact toHashes_stored htext count
    · rwa [Table.toList_ofList hnodup]
    · intro id
      have hentries : (Table.ofList entries).get? id = lookupEntry id entries := by
        rw [Table.ofList, Table.get?_insertAll _ hnodup, Table.get?_empty, Option.or_none]
      rw [hentries]
      exact lookupEntry_perm hperm m.nodup id

/-- Hashes with ids and values at the limits. -/
def extremes : Table Int64 Int64 :=
  Table.ofList [(5, 50), (-1, Int64.maxValue), (Int64.minValue, -7)]

/-- The same entries in another order. -/
def extremesReordered : List (Int64 × Int64) :=
  [(Int64.minValue, -7), (5, 50), (-1, Int64.maxValue)]

theorem stored_hashes_any_order_extremes :
    extremesReordered.Perm extremes.toList ∧
    ofHashes extremesReordered = some
      "eyItOTIyMzM3MjAzNjg1NDc3NTgwOCI6LTcsIjUiOjUwLCItMSI6OTIyMzM3MjAzNjg1NDc3NTgwN30" ∧
    ∀ count, ∃ users, toHashes
        ("eyItOTIyMzM3MjAzNjg1NDc3NTgwOCI6LTcsIjUiOjUwLCItMSI6OTIyMzM3MjAzNjg1NDc3NTgwN30" ++
          pad count) = .ok users ∧
      users.toList.Perm extremes.toList ∧ ∀ id, users.get? id = extremes.get? id := by
  have hperm : extremesReordered.Perm extremes.toList := by decide
  have htext : ofHashes extremesReordered = some
      "eyItOTIyMzM3MjAzNjg1NDc3NTgwOCI6LTcsIjUiOjUwLCItMSI6OTIyMzM3MjAzNjg1NDc3NTgwN30" := by
    decide +kernel
  obtain ⟨-, -, hread⟩ := stored_hashes_any_order extremes hperm
  rw [htext] at hread
  exact ⟨hperm, htext, hread⟩

end Telebridge.Backup
