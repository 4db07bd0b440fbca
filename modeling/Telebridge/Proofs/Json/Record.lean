import Telebridge.Json.Record
import Telebridge.Proofs.Json.Reading
set_option autoImplicit false

/-! # Reading back records

A record is written as the object of the fields that it gives (`ofFields`). The reader finds under each
declared name what was given for it, and nothing where the field was left out (`record?_ofFields`). What
is written `Faithfully` is read back from its value, and then also from its text
(`Faithful.lossless`). -/

namespace Telebridge.Json

variable {α β γ : Type}

/-- Values that are written one by one and can each be read are read one by one. -/
theorem mapM_map_eq_some_map {write : α → β} {read : β → Option γ} {value : α → γ} {xs : List α}
    (h : ∀ x ∈ xs, read (write x) = some (value x)) :
    (xs.map write).mapM read = some (xs.map value) := by
  induction xs with
  | nil => rfl
  | cons x xs ih =>
    have hxs := ih fun y hy => h y (List.mem_cons_of_mem x hy)
    simp [h x List.mem_cons_self, hxs]

theorem mapM_map_eq_some {write : α → β} {read : β → Option α} (h : ∀ x, read (write x) = some x)
    (xs : List α) : (xs.map write).mapM read = some xs := by
  rw [mapM_map_eq_some_map fun x _ => h x, List.map_id']

/-! ## Fields -/

/-- What stands in the object for a field: nothing if it is not given. -/
def piece (f : String × Option Json) : List (String × Json) :=
  (f.2.map fun v => (f.1, v)).toList

/-- The object of the fields that are given. -/
def ofFields (fields : List (String × Option Json)) : Json :=
  obj (fields.flatMap piece)

@[simp] theorem piece_none (name : String) : piece (name, none) = [] := rfl

@[simp] theorem piece_some (name : String) (v : Json) : piece (name, some v) = [(name, v)] := rfl

theorem mem_piece {name : String} {v : Json} {f : String × Option Json} :
    (name, v) ∈ piece f ↔ f = (name, some v) := by
  obtain ⟨k, x⟩ := f
  cases x with
  | none => simp
  | some w => simp [eq_comm]

theorem asFields?_obj (fields : List (String × Json)) : asFields? (obj fields) = some fields := by
  refine mapM_map_eq_some (fun f => ?_) fields
  rw [Text.value?_ofString]
  rfl

/-- Under the name of a field stands what was given for it, and no more. -/
theorem filter_flatMap_piece {fields : List (String × Option Json)}
    (hnames : (fields.map Prod.fst).Nodup) {f : String × Option Json} (hf : f ∈ fields) :
    (fields.flatMap piece).filter (fun e => e.1 = f.1) = piece f := by
  -- the fields of other names contribute nothing
  have hother {g : String × Option Json} (hg : g.1 ≠ f.1) :
      (piece g).filter (fun e => e.1 = f.1) = [] := by
    rw [List.filter_eq_nil_iff]
    intro e he
    have hname : g = (e.1, some e.2) := mem_piece.1 he
    rw [hname] at hg
    simpa using hg
  have hself : (piece f).filter (fun e => e.1 = f.1) = piece f := by
    rw [List.filter_eq_self]
    intro e he
    have hname : f = (e.1, some e.2) := mem_piece.1 he
    simp [hname]
  induction fields with
  | nil => cases hf
  | cons g rest ih =>
    rw [List.map_cons, List.nodup_cons] at hnames
    rw [List.flatMap_cons, List.filter_append]
    rcases List.mem_cons.1 hf with rfl | hrest
    · have hnone : (rest.flatMap piece).filter (fun e => e.1 = f.1) = [] := by
        rw [List.filter_flatMap, List.flatMap_eq_nil_iff]
        intro g hg
        refine hother fun hname => hnames.1 ?_
        exact List.mem_map.2 ⟨g, hg, hname⟩
      rw [hself, hnone, List.append_nil]
    · have hne : g.1 ≠ f.1 := by
        intro hname
        exact hnames.1 (List.mem_map.2 ⟨f, hrest, hname.symm⟩)
      rw [hother hne, List.nil_append, ih hnames.2 hrest]

/-- The reader finds what was given for each field. -/
theorem record?_ofFields {fields : List (String × Option Json)}
    (hnames : (fields.map Prod.fst).Nodup) :
    record? (fields.map Prod.fst) (ofFields fields) = some (fields.map Prod.snd) := by
  have hkeyed : asFields? (ofFields fields) = some (fields.flatMap piece) := asFields?_obj _
  unfold ofFields obj at hkeyed ⊢
  simp only [record?, hkeyed, Option.bind_eq_bind, Option.bind_some]
  refine mapM_map_eq_some_map fun f hf => ?_
  rw [filter_flatMap_piece hnames hf]
  obtain ⟨name, x⟩ := f
  cases x with
  | none => rfl
  | some v => rfl

/-- The names of the fields of an object. -/
def names (v : Json) : List String :=
  ((asFields? v).getD []).map Prod.fst

/-- A name occurs if something is given for it. -/
theorem mem_names_ofFields {name : String} {fields : List (String × Option Json)} :
    name ∈ (ofFields fields).names ↔ ∃ f ∈ fields, f.1 = name ∧ f.2 ≠ none := by
  rw [names, ofFields, asFields?_obj, Option.getD_some, List.mem_map]
  constructor
  · rintro ⟨⟨k, v⟩, hmem, rfl⟩
    obtain ⟨f, hf, hpiece⟩ := List.mem_flatMap.1 hmem
    obtain rfl := mem_piece.1 hpiece
    exact ⟨_, hf, rfl, Option.some_ne_none v⟩
  · rintro ⟨f, hf, rfl, hgiven⟩
    obtain ⟨v, hv⟩ := Option.ne_none_iff_exists'.1 hgiven
    exact ⟨(f.1, v), List.mem_flatMap.2 ⟨f, hf, mem_piece.2 (Prod.ext rfl hv)⟩, rfl⟩

theorem sound_obj {fields : List (String × Json)} (h : ∀ f ∈ fields, f.2.Sound) :
    (obj fields).Sound := by
  refine .object (fun f hf => ?_) fun f hf => ?_
  · obtain ⟨e, -, rfl⟩ := List.mem_map.1 hf
    exact Text.sound_ofString e.1
  · obtain ⟨e, he, rfl⟩ := List.mem_map.1 hf
    exact h e he

theorem sound_ofFields {fields : List (String × Option Json)}
    (h : ∀ f ∈ fields, ∀ v ∈ f.2, v.Sound) : (ofFields fields).Sound := by
  refine sound_obj fun e he => ?_
  obtain ⟨f, hf, hpiece⟩ := List.mem_flatMap.1 he
  obtain rfl := mem_piece.1 hpiece
  exact h _ hf e.2 rfl

/-! ## Faithful forms -/

/-- Every value has a JSON form that can be written as a text, and is read back from it. -/
structure Faithful (write : α → Json) (read : Json → Option α) : Prop where
  sound : ∀ x, (write x).Sound
  read_write : ∀ x, read (write x) = some x

/-- The number for a 64-bit word. -/
def ofInt64 (n : Int64) : Json :=
  .integer n.toInt

/-- The number for a 32-bit word. -/
def ofInt32 (n : Int32) : Json :=
  .integer n.toInt

/-- The number for a 16-bit word without a sign. -/
def ofUInt16 (n : UInt16) : Json :=
  .integer n.toNat

/-- Every value is read back from the text of its JSON form. -/
def Lossless (write : α → Json) (read : Json → Option α) : Prop :=
  ∀ x, (ofString? (write x).toText).bind read = some x

/-- What is given for a field can be written, and the field's reader takes it for `x`. -/
structure Gives (read : Option Json → Option α) (given : Option Json) (x : α) : Prop where
  sound : ∀ v ∈ given, v.Sound
  read_eq : read given = some x

/-- A field that is left out when it has its default. -/
def unlessDefault [DecidableEq α] (missing : α) (write : α → Json) (x : α) : Option Json :=
  if x = missing then none else some (write x)

@[simp] theorem unlessDefault_eq_none [DecidableEq α] {missing : α} {write : α → Json} {x : α} :
    unlessDefault missing write x = none ↔ x = missing := by
  unfold unlessDefault
  by_cases h : x = missing
  · simp [h]
  · simp [h]

theorem faithful_str : Faithful str asString? where
  sound s := .text (Text.sound_ofString s)
  read_write s := Text.value?_ofString s

theorem faithful_bool : Faithful .bool asBool? where
  sound b := .bool b
  read_write _ := rfl

theorem faithful_int64 : Faithful ofInt64 asInt64? where
  sound n := .integer n.toInt
  read_write n := Text.fitInt64?_toInt n

theorem faithful_int32 : Faithful ofInt32 asInt32? where
  sound n := .integer n.toInt
  read_write n := Text.fitInt32?_toInt n

theorem faithful_uint16 : Faithful ofUInt16 asUInt16? where
  sound n := .integer n.toNat
  read_write n := by
    have hrange : (0 : Int) ≤ n.toNat ∧ (n.toNat : Int) < UInt16.size :=
      ⟨Int.natCast_nonneg _, Int.ofNat_lt.2 n.toNat_lt⟩
    unfold ofUInt16
    rw [asUInt16?.eq_1, if_pos hrange, Int.toNat_natCast, UInt16.ofNat_toNat]

namespace Faithful

variable {write : α → Json} {read : Json → Option α}

theorem lossless (h : Faithful write read) : Lossless write read := by
  intro x
  rw [ofString?_toText (h.sound x), Option.bind_some, h.read_write]

theorem list (h : Faithful write read) :
    Faithful (fun xs => .array (xs.map write)) (asList? read) where
  sound xs := by
    refine .array fun v hv => ?_
    obtain ⟨x, -, rfl⟩ := List.mem_map.1 hv
    exact h.sound x
  read_write xs := mapM_map_eq_some h.read_write xs

/-! ### Fields -/

theorem required (h : Faithful write read) (x : α) :
    Gives (Json.required read) (some (write x)) x where
  sound := by
    rintro _ ⟨⟩
    exact h.sound x
  read_eq := h.read_write x

theorem optional (h : Faithful write read) (missing x : α) :
    Gives (Json.optional missing read) (some (write x)) x where
  sound := by
    rintro _ ⟨⟩
    exact h.sound x
  read_eq := h.read_write x

/-- What is left out is what is taken for missing. -/
theorem unlessDefault [DecidableEq α] (h : Faithful write read) (missing x : α) :
    Gives (Json.optional missing read) (Json.unlessDefault missing write x) x := by
  unfold Json.unlessDefault
  by_cases hx : x = missing
  · rw [if_pos hx]
    exact ⟨by simp, by rw [hx]; rfl⟩
  · rw [if_neg hx]
    exact h.optional missing x

/-- A part that may be absent, unless it is written as `null`. -/
theorem nullable (h : Faithful write read) (hnull : ∀ x, write x ≠ .null) (x : Option α) :
    Gives (Json.optional none (asNullable? read)) (x.map write) x := by
  cases x with
  | none => exact ⟨by simp, rfl⟩
  | some x =>
    refine ⟨?_, ?_⟩
    · rintro _ ⟨⟩
      exact h.sound x
    · show asNullable? read (write x) = some (some x)
      unfold asNullable?
      split
      · next hx => exact absurd hx (hnull x)
      · rw [h.read_write]
        rfl

/-! ### Records -/

/-- A record is faithful if its fields can be written, and its reader makes the value of what was given
for them. -/
theorem record (fields : α → List (String × Option Json)) {names : List String}
    {make : List (Option Json) → Option α} (hnames : names.Nodup)
    (hwrite : ∀ x, write x = ofFields (fields x))
    (hread : ∀ v, read v = (record? names v).bind make)
    (hfields : ∀ x, (fields x).map Prod.fst = names)
    (hgiven : ∀ x, (∀ f ∈ fields x, ∀ v ∈ f.2, v.Sound) ∧ make ((fields x).map Prod.snd) = some x) :
    Faithful write read where
  sound x := hwrite x ▸ sound_ofFields (hgiven x).1
  read_write x := by
    have hrecord := record?_ofFields (hfields x ▸ hnames)
    rw [hfields] at hrecord
    rw [hread, hwrite, hrecord, Option.bind_some, (hgiven x).2]

end Faithful

end Telebridge.Json
