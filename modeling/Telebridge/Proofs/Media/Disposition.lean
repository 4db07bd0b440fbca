import Mathlib.Data.List.DropRight
import Telebridge.Media.FileName
set_option autoImplicit false

/-! # File names in headers

A `Content-Disposition` header is split at its semicolons before the quotes are looked at. So a quoted
file name is read back exactly if there is no semicolon in it (`attachment_reads_back_iff`); otherwise
the name ends in front of the first one (`ofDisposition?_attachment`). Whatever the header, what it gives
names a file and no path (`isFileName_of_ofDisposition?`). -/

namespace Telebridge.FileName

variable {p : Char → Bool} {c : Char} {cs front rest name : List Char}

/-! ## Parts and ends of a text -/

/-- The first part is what stands in front of the first separator. -/
theorem splitAll_eq_cons (sep : Char → Bool) (cs : List Char) :
    ∃ parts, splitAll sep cs = cs.takeWhile (fun c => !sep c) :: parts := by
  induction cs with
  | nil => exact ⟨[], rfl⟩
  | cons c rest ih =>
    obtain ⟨parts, hparts⟩ := ih
    by_cases hc : sep c = true
    · exact ⟨splitAll sep rest, by simp [splitAll, hc]⟩
    · exact ⟨parts, by simp [splitAll, hc, hparts]⟩

theorem splitAll_append_cons {sep : Char → Bool} (hfront : ∀ c ∈ front, sep c = false)
    (hc : sep c = true) : splitAll sep (front ++ c :: rest) = front :: splitAll sep rest := by
  induction front with
  | nil => simp [splitAll, hc]
  | cons d front ih =>
    have hd : sep d = false := hfront d List.mem_cons_self
    simp [splitAll, hd, ih fun c hc => hfront c (List.mem_cons_of_mem _ hc)]

/-- Nothing is dropped in front of a character that stays. -/
theorem dropBack_append_cons (front rest : List Char) (hc : p c = false) :
    Text.dropBack p (front ++ c :: rest) = front ++ c :: Text.dropBack p rest := by
  have hstays : ¬ p c = true := by simp [hc]
  rw [Text.dropBack, Text.dropBack, List.reverse_append, List.reverse_cons, List.append_assoc,
    List.singleton_append, List.dropWhile_append]
  split
  · next hempty =>
    rw [List.isEmpty_iff.1 hempty, List.dropWhile_cons_of_neg hstays]
    simp
  · simp

theorem mem_of_mem_dropBack (h : c ∈ Text.dropBack p cs) : c ∈ cs :=
  (List.rdropWhile_prefix p cs).subset h

theorem decide_eq_false_of_notMem {d : Char} (h : d ∉ cs) : ∀ c ∈ cs, decide (c = d) = false :=
  fun _ hc => decide_eq_false fun hd => h (hd ▸ hc)

theorem dropBack_eq_self (h : ∀ c ∈ cs, p c = false) : Text.dropBack p cs = cs :=
  List.rdropWhile_eq_self_iff.2 fun hne => by simp [h _ (List.getLast_mem hne)]

theorem dropEnds_eq_self (h : ∀ c ∈ cs, p c = false) : Text.dropEnds p cs = cs := by
  have hfront : Text.dropFront p cs = cs :=
    List.dropWhile_eq_self_iff.2 fun hpos => by simp [h _ (List.getElem_mem hpos)]
  rw [Text.dropEnds, hfront, dropBack_eq_self h]

/-! ## What a header gives -/

/-- A name that a file can have in any directory: it is no path and does not stand for a directory. -/
structure IsFileName (name : String) : Prop where
  ne_empty : name ≠ ""
  slash : '/' ∉ name.toList
  backslash : '\\' ∉ name.toList
  ne_here : name ≠ "."
  ne_parent : name ≠ ".."

theorem proper?_eq_some_iff :
    proper? cs = some name ↔ (cs ≠ [] ∧ cs ≠ ['.'] ∧ cs ≠ ['.', '.']) ∧ cs = name := by
  simp [proper?]

theorem proper?_toList {name : String} (h : IsFileName name) : proper? name.toList = some name.toList :=
  proper?_eq_some_iff.2 ⟨⟨fun hnil => h.ne_empty (String.toList_inj.1 hnil),
    fun hdot => h.ne_here (String.toList_inj.1 hdot),
    fun hdots => h.ne_parent (String.toList_inj.1 hdots)⟩, rfl⟩

/-- The last part of a path holds no separator. -/
theorem ne_of_mem_basename (h : c ∈ basename cs) : c ≠ '/' ∧ c ≠ '\\' := by
  simpa using List.mem_rtakeWhile_imp h

theorem basename_eq_self (h : ∀ c ∈ cs, c ≠ '/' ∧ c ≠ '\\') : basename cs = cs :=
  List.rtakeWhile_eq_self_iff.2 fun c hc => by simpa using h c hc

/-- What a header gives is the name of a file, whatever the header. -/
theorem isFileName_of_ofDisposition? {header name : String} (h : ofDisposition? header = some name) :
    IsFileName name := by
  simp only [ofDisposition?, Option.bind_eq_bind, Option.bind_eq_some_iff, Option.map_eq_some_iff] at h
  obtain ⟨value, -, base, hproper, rfl⟩ := h
  obtain ⟨⟨hempty, hhere, hparent⟩, rfl⟩ := proper?_eq_some_iff.1 hproper
  have hlist : ∀ {s : String}, s.toList ≠ basename value → String.ofList (basename value) ≠ s :=
    fun hne heq => hne (by rw [← heq, String.toList_ofList])
  exact
    { ne_empty := hlist hempty.symm
      slash := fun hmem => (ne_of_mem_basename (String.toList_ofList ▸ hmem)).1 rfl
      backslash := fun hmem => (ne_of_mem_basename (String.toList_ofList ▸ hmem)).2 rfl
      ne_here := hlist hhere.symm
      ne_parent := hlist hparent.symm }

/-! ## Names in quotes -/

/-- The header of an attachment whose name is given in quotes. -/
def attachment (name : String) : String :=
  "attachment; filename=\"" ++ name ++ "\""

/-- What a header gives of a name in its quotes: all of it, or what stands in front of the first
semicolon, without blanks at the end. -/
def kept (name : List Char) : List Char :=
  if ';' ∈ name then Text.dropBack Text.isBlank (name.takeWhile (· ≠ ';')) else name

theorem mem_of_mem_kept (h : c ∈ kept name) : c ∈ name := by
  unfold kept at h
  split at h
  · exact (List.takeWhile_prefix _).subset (mem_of_mem_dropBack h)
  · exact h

theorem semicolon_notMem_kept (name : List Char) : ';' ∉ kept name := by
  intro hmem
  unfold kept at hmem
  split at hmem
  · simpa using List.mem_takeWhile_imp (mem_of_mem_dropBack hmem)
  · next h => exact h hmem

theorem toList_attachment (name : String) : (attachment name).toList =
    "attachment".toList ++ ';' :: (" filename=\"".toList ++ (name.toList ++ ['"'])) :=
  calc (attachment name).toList
    _ = "attachment; filename=\"".toList ++ name.toList ++ "\"".toList :=
      String.toList_append.trans (congrArg (· ++ "\"".toList) String.toList_append)
    _ = "attachment; filename=\"".toList ++ (name.toList ++ ['"']) := List.append_assoc _ _ _

/-- What stands behind the first quote, without the blanks at its end: a semicolon cuts off the closing
quote. -/
theorem dropBack_takeWhile_quoted (name : List Char) :
    Text.dropBack Text.isBlank ((name ++ ['"']).takeWhile fun c => !decide (c = ';')) =
      if ';' ∈ name then kept name else name ++ ['"'] := by
  split
  · next hsemi =>
    obtain ⟨front, rest, rfl, hfront⟩ := List.eq_append_cons_of_mem hsemi
    have hpos : ∀ c ∈ front, !decide (c = ';') := fun c hc => by
      simp [decide_eq_false_of_notMem hfront c hc]
    simp [kept, List.takeWhile_append_of_pos hpos]
  · next hsemi =>
    have hpos : ∀ c ∈ name ++ ['"'], !decide (c = ';') := fun c hc => by
      rcases List.mem_append.1 hc with hc | hc
      · simp [decide_eq_false_of_notMem hsemi c hc]
      · simp [List.mem_singleton.1 hc]
    rw [List.takeWhile_eq_self_iff.2 hpos]
    exact dropBack_append_cons name [] (by decide)

/-- The quotes around a name are dropped, also when the closing one is missing. -/
theorem dropEnds_quoted (h : '"' ∉ name) :
    Text.dropEnds (· = '"') ('"' :: if ';' ∈ name then kept name else name ++ ['"']) = kept name := by
  have hopening : ∀ cs, Text.dropEnds (· = '"') ('"' :: cs) = Text.dropEnds (· = '"') cs := fun cs => by
    simp [Text.dropEnds, Text.dropFront]
  rw [hopening]
  split
  · exact dropEnds_eq_self (decide_eq_false_of_notMem fun hmem => h (mem_of_mem_kept hmem))
  · next hsemi =>
    rw [kept, if_neg hsemi]
    cases name with
    | nil => decide
    | cons c cs =>
      have hstays := decide_eq_false_of_notMem h
      have hfront : Text.dropFront (· = '"') (c :: cs ++ ['"']) = c :: cs ++ ['"'] :=
        List.dropWhile_cons_of_neg (by simp [hstays c List.mem_cons_self])
      rw [Text.dropEnds, hfront]
      exact (List.rdropWhile_concat_pos _ _ _ (by decide)).trans (dropBack_eq_self hstays)

/-- The parts of an attachment's header: its second one is the parameter with the name, up to the first
semicolon. -/
theorem splitAll_attachment (name : String) :
    ∃ parts, splitAll (· = ';') (attachment name).toList = "attachment".toList ::
      (" filename=\"".toList ++ (name.toList ++ ['"']).takeWhile fun c => !decide (c = ';')) :: parts := by
  obtain ⟨parts, hparts⟩ :=
    splitAll_eq_cons (· = ';') (" filename=\"".toList ++ (name.toList ++ ['"']))
  refine ⟨parts, ?_⟩
  rw [toList_attachment, splitAll_append_cons (by simp) (by decide), hparts,
    List.takeWhile_append_of_pos (by simp)]

/-- A parameter that opens a quote, as it is read once the blanks at its ends are dropped. -/
theorem dropEnds_parameter (value : List Char) :
    Text.dropEnds Text.isBlank (" filename=\"".toList ++ value) =
      "filename".toList ++ '=' :: '"' :: Text.dropBack Text.isBlank value :=
  dropBack_append_cons "filename=".toList value (by decide)

/-- What follows the opening quote is trimmed once. -/
theorem dropEnds_quote (value : List Char) :
    Text.dropEnds Text.isBlank ('"' :: Text.dropBack Text.isBlank value) =
      '"' :: Text.dropBack Text.isBlank value := by
  have hquote : Text.dropEnds Text.isBlank ('"' :: Text.dropBack Text.isBlank value) =
      '"' :: Text.dropBack Text.isBlank (Text.dropBack Text.isBlank value) :=
    dropBack_append_cons [] _ (by decide)
  have htwice : Text.dropBack Text.isBlank (Text.dropBack Text.isBlank value) =
      Text.dropBack Text.isBlank value := List.rdropWhile_idempotent _ _
  rw [hquote, htwice]

/-- The value that a header gives of a name in quotes. -/
theorem dispositionValue?_attachment {name : String} (h : '"' ∉ name.toList) :
    dispositionValue? (attachment name).toList = some (kept name.toList) := by
  obtain ⟨parts, hparts⟩ := splitAll_attachment name
  have hvalue := dropEnds_quoted h
  rw [← dropBack_takeWhile_quoted] at hvalue
  generalize (name.toList ++ ['"']).takeWhile (fun c => !decide (c = ';')) = value at hparts hvalue
  have hparameter :
      splitParameter? ("filename".toList ++ '=' :: '"' :: Text.dropBack Text.isBlank value) =
        some ("filename".toList, '"' :: Text.dropBack Text.isBlank value) := rfl
  have hname : (Text.dropEnds Text.isBlank "filename".toList).map Char.toLower = "filename".toList := by
    decide
  simp only [dispositionValue?, hparts, List.tail_cons, List.filterMap_cons, dropEnds_parameter,
    hparameter, List.find?_cons, hname, decide_true, Option.map_some, dropEnds_quote, hvalue]

/-- What is read from the header of an attachment whose name is no path. -/
theorem ofDisposition?_attachment {name : String} (hquote : '"' ∉ name.toList)
    (hslash : '/' ∉ name.toList) (hbackslash : '\\' ∉ name.toList) :
    ofDisposition? (attachment name) = (proper? (kept name.toList)).map String.ofList := by
  have hbase : basename (kept name.toList) = kept name.toList :=
    basename_eq_self fun c hc =>
      ⟨fun h => hslash (h ▸ mem_of_mem_kept hc), fun h => hbackslash (h ▸ mem_of_mem_kept hc)⟩
  simp only [ofDisposition?, dispositionValue?_attachment hquote, Option.bind_eq_bind,
    Option.bind_some, hbase]

/-- A quoted file name is read back unless there is a semicolon in it, and what is read from any header
is a file name. -/
theorem attachment_reads_back_iff (name : String) (hname : IsFileName name)
    (hquote : '"' ∉ name.toList) :
    (ofDisposition? (attachment name) = some name ↔ ';' ∉ name.toList) ∧
      ∀ header read, ofDisposition? header = some read → IsFileName read := by
  refine ⟨⟨fun h hsemi => ?_, fun hsemi => ?_⟩, fun _ _ => isFileName_of_ofDisposition?⟩
  · rw [ofDisposition?_attachment hquote hname.slash hname.backslash] at h
    obtain ⟨base, hproper, hbase⟩ := Option.map_eq_some_iff.1 h
    have hkept : kept name.toList = name.toList := by
      rw [(proper?_eq_some_iff.1 hproper).2, ← hbase, String.toList_ofList]
    exact semicolon_notMem_kept name.toList (hkept.symm ▸ hsemi)
  · rw [ofDisposition?_attachment hquote hname.slash hname.backslash, kept, if_neg hsemi,
      proper?_toList hname, Option.map_some, String.ofList_toList]

theorem attachment_reads_back_iff_report :
    IsFileName "report.pdf" ∧ '"' ∉ "report.pdf".toList ∧
      ofDisposition? (attachment "report.pdf") = some "report.pdf" := by
  have hname : IsFileName "report.pdf" :=
    ⟨by decide, by decide, by decide, by decide, by decide⟩
  have hquote : '"' ∉ "report.pdf".toList := by decide
  exact ⟨hname, hquote, (attachment_reads_back_iff "report.pdf" hname hquote).1.2 (by decide)⟩

/-- A quoted name with a semicolon in it is not read back. -/
theorem semicolon_ends_name :
    ¬ ∀ name, IsFileName name → '"' ∉ name.toList →
      (∀ c ∈ name.toList, 0x20 ≤ c.toNat ∧ ¬ (0x7F ≤ c.toNat ∧ c.toNat ≤ 0x9F)) →
      ofDisposition? (attachment name) = some name := by
  intro h
  have hname : IsFileName "a;b.txt" := ⟨by decide, by decide, by decide, by decide, by decide⟩
  have hread : ofDisposition? (attachment "a;b.txt") = some "a" := by decide
  rw [h "a;b.txt" hname (by decide) (by simp)] at hread
  exact absurd hread (by decide)

end Telebridge.FileName
