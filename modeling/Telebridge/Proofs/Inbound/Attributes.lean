import Telebridge.Proofs.Inbound.Conduct
set_option autoImplicit false

/-! # The order of a document's attributes

A document says what it is in a list of attributes, which are read one after the other. `Describes` says
what they come to by what is in the list alone: a sticker stands for its picture and its text, whatever
its file is called, and only a document that is no sticker has the name of its file. That is what is
fetched and delivered (`describes_ofDocument`), so messages that differ in the order of the attributes are
handled by one and the same program (`attributes_in_any_order`). -/

namespace Telebridge.Inbound

open Program

/-- The sticker that an attribute is. -/
def sticker? : DocumentAttribute → Option StickerAttribute
  | .sticker s => some s
  | _ => none

/-- The file name that an attribute is. -/
def fileName? : DocumentAttribute → Option String
  | .filename name => some name
  | _ => none

/-- The document says at most once that it is a sticker, and at most once what its file is called. -/
structure Unambiguous (attributes : List DocumentAttribute) : Prop where
  sticker : (attributes.filterMap sticker?).length ≤ 1
  fileName : (attributes.filterMap fileName?).length ≤ 1

/-- The picture of a sticker: the type and the length of the largest one, as far as they are known. -/
def picture (d : Document) : String × Int64 :=
  match d.thumbs.bind largestSize? with
  | some (type, size) => (type, size.getD d.size)
  | none => ("", d.size)

/-- What is to be fetched for a document with a caption, and the text that goes with it. A sticker is
fetched as a picture and named `stickerName`. -/
structure Describes (d : Document) (stickerName caption : String) (f : FileContent) : Prop where
  sticker : ∀ s, .sticker s ∈ d.attributes → f = {
    file := { mime := "image/webp", name := stickerName, size := (picture d).2 }
    location := .document ⟨d.id, d.accessHash, d.fileReference, (picture d).1⟩
    caption := if s.alt = "" then caption else s.alt }
  other : (∀ s, .sticker s ∉ d.attributes) → ∃ name, f = {
      file := { mime := d.mimeType, name, size := d.size }
      location := .document ⟨d.id, d.accessHash, d.fileReference, ""⟩
      caption } ∧
    (∀ given, .filename given ∈ d.attributes → name = given) ∧
    ((∀ given, .filename given ∉ d.attributes) → name = "")

/-- Whatever the order of the attributes, there is one description only, up to the name for the picture. -/
theorem Describes.alike {d : Document} {attributes : List DocumentAttribute}
    {stickerName stickerName' caption : String} {f g : FileContent}
    (hperm : attributes.Perm d.attributes) (hf : Describes d stickerName caption f)
    (hg : Describes { d with attributes } stickerName' caption g) :
    ∃ name, g = { f with file := { f.file with name } } ∧
      (name = f.file.name ∨ f.file.name = stickerName ∧ name = stickerName') := by
  by_cases hsticker : ∃ s, .sticker s ∈ d.attributes
  · obtain ⟨s, hs⟩ := hsticker
    obtain rfl := hf.sticker s hs
    obtain rfl := hg.sticker s (hperm.mem_iff.2 hs)
    exact ⟨stickerName', rfl, .inr ⟨rfl, rfl⟩⟩
  · rw [not_exists] at hsticker
    obtain ⟨name, rfl, hname, hnone⟩ := hf.other hsticker
    obtain ⟨name', rfl, hname', hnone'⟩ := hg.other fun s hs => hsticker s (hperm.mem_iff.1 hs)
    refine ⟨name', rfl, .inl ?_⟩
    by_cases hgiven : ∃ given, .filename given ∈ d.attributes
    · obtain ⟨given, hmem⟩ := hgiven
      rw [hname given hmem, hname' given (hperm.mem_iff.2 hmem)]
    · rw [not_exists] at hgiven
      rw [hnone hgiven, hnone' fun given hmem => hgiven given (hperm.mem_iff.1 hmem)]

/-! ## Reading the attributes -/

variable {thumbs : Option (List PhotoSize)} {stickerName : String} {draft : Draft}
  {attributes : List DocumentAttribute}

/-- What is known of a document, under another file name. -/
def Draft.named (draft : Draft) (name : String) : Draft :=
  { draft with file := { draft.file with name } }

/-- What is known of a document before its attributes are read. -/
def Draft.blank (d : Document) : Draft :=
  { file := { mime := d.mimeType, size := d.size } }

/-- What is known of a document after it has turned out to be a sticker. -/
def Draft.ofSticker (d : Document) (stickerName : String) (s : StickerAttribute) : Draft :=
  { file := { mime := "image/webp", name := stickerName, size := (picture d).2 }
    thumbSize := (picture d).1
    text := s.alt }

/-- A sticker replaces the name that was found before it. -/
theorem Draft.add_sticker (d : Document) (s : StickerAttribute) (name : String) :
    Draft.add d.thumbs stickerName ((Draft.blank d).named name) (.sticker s) =
      Draft.ofSticker d stickerName s := by
  unfold Draft.add Draft.ofSticker picture
  rcases d.thumbs.bind largestSize? with _ | ⟨type, _ | size⟩ <;> rfl

/-- Without a sticker only the file name can change. -/
theorem foldl_add_of_no_sticker (h : ∀ s, .sticker s ∉ attributes) :
    ∃ name, attributes.foldl (Draft.add thumbs stickerName) draft = draft.named name := by
  induction attributes generalizing draft with
  | nil => exact ⟨draft.file.name, rfl⟩
  | cons entry rest ih =>
    have hrest (draft : Draft) :
        ∃ name, rest.foldl (Draft.add thumbs stickerName) draft = draft.named name :=
      ih fun s hs => h s (List.mem_cons_of_mem _ hs)
    rw [List.foldl_cons]
    cases entry with
    | sticker s => exact absurd List.mem_cons_self (h s)
    | filename given =>
      rw [Draft.add]
      split
      · exact hrest (draft.named given)
      · exact hrest draft
    | imageSize | animated | video | audio => exact hrest draft

/-- Nor does the file name change if there is one already, or none comes. -/
theorem foldl_add_eq_self (h : ∀ s, .sticker s ∉ attributes)
    (hname : draft.file.name ≠ "" ∨ ∀ given, .filename given ∉ attributes) :
    attributes.foldl (Draft.add thumbs stickerName) draft = draft := by
  induction attributes with
  | nil => rfl
  | cons entry rest ih =>
    have hrest := ih (fun s hs => h s (List.mem_cons_of_mem _ hs))
      (hname.imp_right fun hnone given hgiven => hnone given (List.mem_cons_of_mem _ hgiven))
    rw [List.foldl_cons]
    cases entry with
    | sticker s => exact absurd List.mem_cons_self (h s)
    | filename given =>
      have hkept : draft.file.name ≠ "" :=
        hname.resolve_right fun hnone => hnone given List.mem_cons_self
      rw [Draft.add, if_neg (by simpa using hkept), hrest]
    | imageSize | animated | video | audio => exact hrest

/-- If at most one entry of a list is kept, none is kept before or after it. -/
theorem not_kept_of_length_le_one {α β : Type} {keep : α → Option β} {before after : List α} {x y : α}
    (h : ((before ++ x :: after).filterMap keep).length ≤ 1) (hx : (keep x).isSome)
    (hy : y ∈ before ∨ y ∈ after) : keep y = none := by
  obtain ⟨v, hv⟩ := Option.isSome_iff_exists.1 hx
  have hlength : (before.filterMap keep).length + (after.filterMap keep).length = 0 := by
    simp only [List.filterMap_append, List.filterMap_cons, hv, List.length_append,
      List.length_cons] at h
    omega
  rcases hy with hy | hy
  · exact List.filterMap_eq_nil_iff.1 (List.length_eq_zero_iff.1 (by omega)) y hy
  · exact List.filterMap_eq_nil_iff.1 (List.length_eq_zero_iff.1 (by omega)) y hy

/-- What a document brings is what its attributes describe. The name for the picture of a sticker must
not be empty. -/
theorem describes_ofDocument (d : Document) (stickerName caption : String)
    (h : Unambiguous d.attributes)
    (hpicture : ∀ s, .sticker s ∈ d.attributes → stickerName ≠ "") :
    ∃ f, ofDocument d stickerName caption = .file f ∧ Describes d stickerName caption f := by
  refine ⟨_, rfl, ?_, ?_⟩
  · intro s hs
    obtain ⟨before, after, hsplit⟩ := List.append_of_mem hs
    have hsingle {y : DocumentAttribute} (hy : y ∈ before ∨ y ∈ after) : sticker? y = none :=
      not_kept_of_length_le_one (hsplit ▸ h.sticker) rfl hy
    have hbefore : ∀ s', .sticker s' ∉ before := fun s' hs' => by cases hsingle (.inl hs')
    have hafter : ∀ s', .sticker s' ∉ after := fun s' hs' => by cases hsingle (.inr hs')
    -- a name that is found before the sticker is replaced by it, and one after it comes too late
    have hfold : d.attributes.foldl (Draft.add d.thumbs stickerName) (Draft.blank d) =
        Draft.ofSticker d stickerName s := by
      obtain ⟨name, hfirst⟩ : ∃ name, before.foldl (Draft.add d.thumbs stickerName) (Draft.blank d) =
          (Draft.blank d).named name := foldl_add_of_no_sticker hbefore
      rw [hsplit, List.foldl_append, List.foldl_cons, hfirst, Draft.add_sticker]
      exact foldl_add_eq_self hafter (.inl (hpicture s hs))
    rw [Draft.blank] at hfold
    simp only [hfold, Draft.ofSticker, String.isEmpty_iff]
  · intro hnone
    by_cases hgiven : ∃ given, .filename given ∈ d.attributes
    · obtain ⟨given, hmem⟩ := hgiven
      obtain ⟨before, after, hsplit⟩ := List.append_of_mem hmem
      have hsingle {y : DocumentAttribute} (hy : y ∈ before ∨ y ∈ after) : fileName? y = none :=
        not_kept_of_length_le_one (hsplit ▸ h.fileName) rfl hy
      have hmem_iff {y : DocumentAttribute} :
          y ∈ d.attributes ↔ y = .filename given ∨ y ∈ before ∨ y ∈ after := by
        rw [hsplit, List.mem_append, List.mem_cons, or_left_comm]
      have hneither {part : List DocumentAttribute} (hpart : ∀ y ∈ part, y ∈ before ∨ y ∈ after)
          (draft : Draft) : part.foldl (Draft.add d.thumbs stickerName) draft = draft :=
        foldl_add_eq_self (fun s hs => hnone s (hmem_iff.2 (.inr (hpart _ hs))))
          (.inr fun name hname => by cases hsingle (hpart _ hname))
      refine ⟨given, ?_, ?_, fun habsent => absurd hmem (habsent given)⟩
      · simp [hsplit, hneither (fun y => .inl), hneither (fun y => .inr), Draft.add]
      · intro given' hmem'
        rcases hmem_iff.1 hmem' with heq | hother
        · exact (DocumentAttribute.filename.inj heq).symm
        · cases hsingle hother
    · rw [not_exists] at hgiven
      refine ⟨"", ?_, fun given hmem => absurd hmem (hgiven given), fun _ => rfl⟩
      simp [foldl_add_eq_self hnone (.inr hgiven)]

/-! ## Messages with a document -/

/-- The message with a document. -/
def carrying (m : Message) (d : Document) (ttlSeconds : Option Int32) : Message :=
  { m with media := some (.document (some (.document d)) ttlSeconds) }

theorem isStickerMessage_carrying (m : Message) (d : Document) (ttlSeconds : Option Int32) :
    isStickerMessage (carrying m d ttlSeconds) ↔ ∃ s, .sticker s ∈ d.attributes := by
  show d.attributes.any isSticker = true ↔ _
  rw [List.any_eq_true]
  constructor
  · rintro ⟨entry, hentry, hsticker⟩
    cases entry with
    | sticker s => exact ⟨s, hentry⟩
    | _ => cases hsticker
  · rintro ⟨s, hs⟩
    exact ⟨_, hs, rfl⟩

theorem Unambiguous.of_perm {attributes' : List DocumentAttribute} (h : Unambiguous attributes)
    (hperm : attributes'.Perm attributes) : Unambiguous attributes' where
  sticker := (hperm.filterMap sticker?).length_eq ▸ h.sticker
  fileName := (hperm.filterMap fileName?).length_eq ▸ h.fileName

/-- Messages that bring the same are handed over alike. -/
theorem handOver_congr {m m' : Message} {user : User} {profile : ProfileId}
    {channel : Envelope.Channel} (hid : m.id = m'.id)
    (hsticker : isStickerMessage m = isStickerMessage m')
    (hcontent : ∀ name, (isStickerMessage m → ∃ uuid, name = uuid ++ ".webp") →
      content m user.id channel name = content m' user.id channel name) :
    handOver m user profile channel = handOver m' user profile channel := by
  have haddress (body : Envelope.Message) : address body m (contactOf user) channel =
      address body m' (contactOf user) channel := by
    simp only [address, hid]
  simp only [handOver, pictureName, haddress, ← hsticker]
  split
  · next h =>
    have hnamed {α : Type} (k : String → Program α) :
        (fun id => id ++ ".webp") <$> external .uuid >>= k =
          external .uuid >>= fun uuid => k (uuid ++ ".webp") := bind_assoc ..
    rw [hnamed, hnamed]
    congr 1
    funext uuid
    rw [hcontent _ fun _ => ⟨uuid, rfl⟩]
  · next h =>
    show (fetch (content m user.id channel "") >>= _) = fetch (content m' user.id channel "") >>= _
    rw [hcontent _ fun hm => absurd hm h]

/-- Messages that bring the same are delivered alike. -/
theorem deliver_congr {m m' : Message} {user : User} (hid : m.id = m'.id)
    (hsticker : isStickerMessage m = isStickerMessage m')
    (hcontent : ∀ channel name, (isStickerMessage m → ∃ uuid, name = uuid ++ ".webp") →
      content m user.id channel name = content m' user.id channel name) :
    deliver m user = deliver m' user := by
  have hhand (profile : ProfileId) (channel : Envelope.Channel) :
      handOver m user profile channel = handOver m' user profile channel :=
    handOver_congr hid hsticker (hcontent channel)
  simp only [deliver_eq, hhand]

/-- Messages that come from the same sender, are delivered alike and are marked as read alike are handled
alike. -/
theorem handleMessage_congr {m m' : Message} (hsender : sender? m = sender? m')
    (hdeliver : ∀ user, deliver m user = deliver m' user) (hread : markRead m = markRead m') :
    handleMessage m = handleMessage m' := by
  simp only [handleMessage, hsender, hdeliver, hread]

/-- What a message with a document brings does not depend on the order of the document's attributes,
except that every picture of a sticker has a name of its own. -/
theorem content_carrying_alike (m : Message) {d : Document} (ttlSeconds : Option Int32)
    (senderId : Int64) (channel : Envelope.Channel) {stickerName stickerName' : String}
    (hperm : attributes.Perm d.attributes) (h : Unambiguous d.attributes)
    (hpicture : isStickerMessage (carrying m d ttlSeconds) → stickerName ≠ "" ∧ stickerName' ≠ "") :
    ∃ f name, content (carrying m d ttlSeconds) senderId channel stickerName = .file f ∧
      content (carrying m { d with attributes } ttlSeconds) senderId channel stickerName' =
        .file { f with file := { f.file with name } } ∧
      (name = f.file.name ∨ f.file.name = stickerName ∧ name = stickerName') ∧
      Describes d stickerName m.message f := by
  rw [isStickerMessage_carrying] at hpicture
  obtain ⟨f, hf, hdescribes⟩ := describes_ofDocument d stickerName m.message h
    fun s hs => (hpicture ⟨s, hs⟩).1
  obtain ⟨g, hg, hdescribes'⟩ := describes_ofDocument { d with attributes } stickerName' m.message
    (h.of_perm hperm) fun s hs => (hpicture ⟨s, hperm.mem_iff.1 hs⟩).2
  obtain ⟨name, rfl, hname⟩ := hdescribes.alike hperm hdescribes'
  exact ⟨f, name, hf, hg, hname, hdescribes⟩

/-- Messages that differ in the order of a document's attributes are handled alike, request by request, if
the document says at most once that it is a sticker and at most once what its file is called. Both times
the same file is fetched, described in the same way, and goes with the same text, also if the identifiers
for the name of a picture are different. A sticker takes that name and not the one of its file, wherever
the two stand, and its text is delivered and not that of the message, unless it is empty. -/
theorem attributes_in_any_order (m : Message) (d : Document) (ttlSeconds : Option Int32)
    (attributes : List DocumentAttribute) (hperm : attributes.Perm d.attributes)
    (h : Unambiguous d.attributes) :
    handleMessage (carrying m { d with attributes } ttlSeconds) =
      handleMessage (carrying m d ttlSeconds) ∧
    ∀ uuid uuid' senderId channel, ∃ f name,
      content (carrying m d ttlSeconds) senderId channel (uuid ++ ".webp") = .file f ∧
      content (carrying m { d with attributes } ttlSeconds) senderId channel (uuid' ++ ".webp") =
        .file { f with file := { f.file with name } } ∧
      (name = f.file.name ∨ f.file.name = uuid ++ ".webp" ∧ name = uuid' ++ ".webp") ∧
      Describes d (uuid ++ ".webp") m.message f := by
  have hpicture (uuid : String) : uuid ++ ".webp" ≠ "" := by simp
  constructor
  · refine handleMessage_congr rfl (fun user => ?_) rfl
    refine deliver_congr rfl ?_ fun channel name hname => ?_
    · rw [Bool.eq_iff_iff, isStickerMessage_carrying, isStickerMessage_carrying]
      simp only [hperm.mem_iff]
    · have hne : isStickerMessage (carrying m d ttlSeconds) → name ≠ "" := by
        intro hsticker
        rw [isStickerMessage_carrying] at hname hsticker
        obtain ⟨uuid, rfl⟩ := hname (hsticker.imp fun s hs => hperm.mem_iff.2 hs)
        exact hpicture uuid
      obtain ⟨f, name', hf, hg, heq, -⟩ := content_carrying_alike m ttlSeconds user.id channel hperm h
        fun hsticker => ⟨hne hsticker, hne hsticker⟩
      have hsame : name' = f.file.name := heq.elim id fun h => h.2.trans h.1.symm
      rw [hg, hf, hsame]
  · intro uuid uuid' senderId channel
    exact content_carrying_alike m ttlSeconds senderId channel hperm h fun _ =>
      ⟨hpicture uuid, hpicture uuid'⟩

/-- A sticker with the name of its file before its text. -/
def cat : Document :=
  { id := 1, accessHash := 10, fileReference := ByteArray.empty, date := 0, dcId := 2
    mimeType := "application/x-tgsticker", size := 900
    thumbs := some [.size "m" 128 128 300, .stripped "i" ByteArray.empty]
    attributes := [.filename "cat.tgs", .imageSize 512 512, .sticker { mask := false, alt := ":3" }] }

/-- The attributes of the sticker, with the name of its file after its text. -/
def catAttributes : List DocumentAttribute :=
  [.sticker { mask := false, alt := ":3" }, .filename "cat.tgs", .imageSize 512 512]

/-- A message from a friend. -/
def fromFriend : Message :=
  { out := false, id := 7, fromId := none, peerId := .user 5, date := 0, message := "look", media := none }

/-- What the sticker brings when its picture gets a name. -/
def catPicture (name : String) : FileContent :=
  { file := { mime := "image/webp", name, size := 300 }
    location := .document ⟨1, 10, ByteArray.empty, "m"⟩
    caption := ":3" }

/-- In either order the picture of 300 bytes is fetched, and goes with the sticker's text. -/
theorem attributes_in_any_order_cat :
    catAttributes.Perm cat.attributes ∧ Unambiguous cat.attributes ∧
    handleMessage (carrying fromFriend { cat with attributes := catAttributes } none) =
      handleMessage (carrying fromFriend cat none) ∧
    content (carrying fromFriend cat none) 5 {} "8d3b.webp" = .file (catPicture "8d3b.webp") ∧
    ∃ name, content (carrying fromFriend { cat with attributes := catAttributes } none) 5 {}
      "40f1.webp" = .file (catPicture name) := by
  have hperm : catAttributes.Perm cat.attributes := by decide
  have h : Unambiguous cat.attributes := ⟨by decide, by decide⟩
  obtain ⟨hhandled, hcontent⟩ := attributes_in_any_order fromFriend cat none catAttributes hperm h
  obtain ⟨f, name, hf, hg, -, hdescribes⟩ := hcontent "8d3b" "40f1" 5 {}
  obtain rfl := hdescribes.sticker { mask := false, alt := ":3" } (by decide)
  exact ⟨hperm, h, hhandled, hf, name, hg⟩

end Telebridge.Inbound
