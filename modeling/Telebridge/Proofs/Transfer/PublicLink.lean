import Telebridge.Proofs.Call.Pipeline
import Telebridge.Proofs.Program.Finished
import Telebridge.Proofs.Transfer.Traffic
import Telebridge.Proofs.Url.Reading
set_option autoImplicit false

/-! # Links to stored files

A path from the storage is resolved against the public URL of the profile. Two slashes at its front (or
backslashes, with tabs and line breaks between them) name a host, and then the link leads to that host:
`linkOrigin?_publicUrl` says where the link leads in every case, and `delivered_origin_iff` when that is
where the public URL leads. -/

namespace Telebridge.Download

open Program Url

/-! ## Paths that name a host -/

/-- What a path names as the authority: the text behind two or more slashes at its front. -/
def named? (path : String) : Option (List Char) :=
  let cs := cleanInput path
  if 2 ≤ (cs.takeWhile (isSlash true)).length then some (authorityText (cs.dropWhile (isSlash true)))
  else none

/-- The slash at the front of a path stays there. -/
theorem exists_cleanInput {path : String} (h : path.toList.head? = some '/') :
    ∃ rest, cleanInput path = '/' :: rest := by
  obtain ⟨tail, htail⟩ := List.head?_eq_some_iff.1 h
  have hvisible : ∀ c ∈ ['/'], 0x20 < c.toNat := by
    intro c hc
    obtain rfl := List.mem_singleton.1 hc
    decide
  obtain ⟨rest, hrest⟩ := cleanInput_append (List.cons_ne_nil _ _) hvisible tail
  refine ⟨rest, ?_⟩
  rw [← String.ofList_toList (s := path), htail]
  exact hrest

/-- A path is not an address of its own. -/
theorem linkOrigin?_path [DomainMapping] {path : String} (h : path.toList.head? = some '/') :
    linkOrigin? path = none := by
  obtain ⟨rest, hrest⟩ := exists_cleanInput h
  rw [linkOrigin?, ofString?, hrest]
  rfl

/-- A path is resolved relative to a web address: behind one slash it is a path there, behind more it
starts with an authority. -/
theorem join?_path [DomainMapping] {base : Url} (hbase : base.Written) {path : String}
    (h : path.toList.head? = some '/') :
    (named? path = none ∧
      ∃ rest query fragment, base.join? path = some (withPath base [] rest query fragment)) ∨
    ∃ cs, named? path = some (authorityText cs) ∧ base.join? path = ofAuthority? base.scheme cs := by
  obtain ⟨rest, hrest⟩ := exists_cleanInput h
  obtain ⟨segments, hpath, -⟩ := hbase.path
  have hspecial := hbase.web.isSpecial
  have hjoin : base.join? path = ofRelative? base segments ('/' :: rest) := by
    rw [join?, hrest, hpath]
    rfl
  have hslash : ∀ c ∈ ['/'], c ≠ '?' ∧ c ≠ '#' := by
    intro c hc
    obtain rfl := List.mem_singleton.1 hc
    decide
  have htail : (splitTail ('/' :: rest)).1 = '/' :: (splitTail rest).1 := splitTail_append hslash rest
  rw [hjoin, named?, hrest]
  unfold ofRelative?
  dsimp only
  rw [hspecial]
  by_cases hslashes : 2 ≤ (('/' :: rest).takeWhile (isSlash true)).length
  · refine .inr ⟨('/' :: rest).dropWhile (isSlash true), if_pos hslashes, ?_⟩
    rw [if_pos hslashes]
    rfl
  · refine .inl ⟨if_neg hslashes, (splitTail rest).1, (splitTail ('/' :: rest)).2.1,
      (splitTail ('/' :: rest)).2.2, ?_⟩
    rw [if_neg hslashes, htail]
    rfl

/-- Where the link for a path leads to: to the authority that the path names, if it can be read, and else
to where the public URL leads. -/
theorem linkOrigin?_publicUrl [DomainMapping] [LawfulDomainMapping] {hostUrl path : String}
    {base : Url} (hhost : ofString? hostUrl = some base) (hweb : base.isWeb = true)
    (h : path.toList.head? = some '/') :
    linkOrigin? (publicUrl hostUrl path) =
      (named? path).elim base.origin? fun text =>
        (authority? base.scheme text).map (Authority.origin base.scheme) := by
  have hbase := written_of_ofString? hhost hweb
  rw [publicUrl, if_pos h, hhost, Option.bind_some]
  obtain ⟨hnone, rest, query, fragment, hjoin⟩ | ⟨cs, hnamed, hjoin⟩ := join?_path hbase h
  · rw [hjoin, hnone, Option.elim_none, ← origin?_withPath base [] rest query fragment]
    exact (hbase.withPath [] rest query fragment).origin?_text
  · rw [hnamed, Option.elim_some, ← origin?_ofAuthority? hbase.web.isSpecial, ← hjoin]
    cases hu : base.join? path with
    | none => exact linkOrigin?_path h
    | some u => exact (written_of_ofAuthority? hbase.web (hjoin.symm.trans hu)).origin?_text

example : publicUrl "https://chat.example.com" "/\t\\evil.example" = "https://evil.example/" := by
  decide +kernel

/-! ## Downloads -/

variable {R : Others} {file delivered : Envelope.File} {location : FileLocation} {a b : Account}
  {t : List Event}

/-- A file that is delivered has the link for what the storage and the profile said last. -/
theorem delivered_url [DomainMapping]
    (hrun : Run R (toStorage file location) a t (.done (.ok delivered)) b) :
    ∃ front upload stored id profile,
      t = front ++ [.answered (.closeUpload upload) (.ok stored), .answered (.profile id) profile] ∧
      delivered.url = publicUrl profile.hostUrl stored.url := by
  obtain ⟨x, -, hturns⟩ := Run.read_bind_iff.1 hrun
  obtain ⟨r, t₁, t₂, a₁, rfl, -, hclose⟩ := hturns.bind_done
  cases r with
  | error e =>
    obtain ⟨-, heq, -⟩ := hclose.done_inv
    cases heq
  | ok sink =>
    obtain ⟨answer, u, a₂, -, rfl, hclosed⟩ := Run.external_bind_iff.1 hclose
    cases answer with
    | error e =>
      obtain ⟨-, heq, -⟩ := hclosed.done_inv
      cases heq
    | ok stored =>
      obtain ⟨profile, t₃, t₄, a₃, rfl, hprofile, hlink⟩ := hclosed.bind_done
      obtain ⟨y, -, rfl, -⟩ := hprofile.currentProfile_done
      obtain ⟨rfl, heq, -⟩ := hlink.done_inv
      cases heq
      exact ⟨t₁, sink.upload, stored, y.profile, profile, rfl, rfl⟩

/-- A file that is empty arrives in a single turn. -/
theorem exists_lastTurn (R : Others) (file : Envelope.File) (location : FileLocation) {limit : Nat}
    (hlimit : 0 < limit) (a : Account) :
    ∃ t sink b, Run R (turn file location limit {}) a t (.done (.inr (.ok sink))) b := by
  let query : FileQuery := { location, offset := 0, limit := Int32.ofNat limit }
  let reply : Reply := ⟨.file, FileReply.part .unknown 0 ByteArray.empty⟩
  let known := Pipeline.learn (.getFile query) (.ok reply) a
  have hcall : Run R (Pipeline.call (.getFile query)) a [.answered (.call (.getFile query)) (.ok reply)]
      (.done (Pipeline.outcome (.getFile query) (.ok reply))) known := .of_call a rfl
  have hpart : Run R (requestPart location 0 limit) a [.answered (.call (.getFile query)) (.ok reply)]
      (.done (.ok (some ⟨.unknown, ByteArray.empty⟩))) known := hcall.bind (.refl _ _)
  have hopen : ∃ t sink, Run R (openSink file .unknown) known t (.done (.ok sink)) known :=
    ⟨_, _, (Run.of_external .now default known).bind ((Run.of_currentProfile default known).bind
      ((Run.of_external .uuid "" known).bind ((Run.of_external _ (.ok 0) known).bind (.refl _ _))))⟩
  obtain ⟨t, sink, hopen⟩ := hopen
  have hsend : Run R (sendFrames sink.upload [ByteArray.empty]) known
      [.answered (.sendFrame sink.upload ByteArray.empty) (.ok ())] (.done (.ok ())) known :=
    (Run.of_external (.sendFrame sink.upload ByteArray.empty) (.ok ()) known).bind (.refl _ _)
  refine ⟨[.answered (.call (.getFile query)) (.ok reply)] ++
    (t ++ ([.answered (.sendFrame sink.upload ByteArray.empty) (.ok ())] ++ [])), sink, known, ?_⟩
  refine hpart.bind (hopen.bind ?_)
  have hlast : ByteArray.empty.size < limit := hlimit
  simp only [hlast, decide_true, if_true]
  exact hsend.bind (.refl _ _)

/-- A download may end with any link that storage and profile can give. -/
theorem exists_delivered [DomainMapping] (R : Others) (file : Envelope.File)
    (location : FileLocation) (a : Account) (profile : Profile) (stored : Envelope.StoredFile) :
    ∃ front upload id delivered b,
      Run R (toStorage file location) a
        (front ++ [.answered (.closeUpload upload) (.ok stored), .answered (.profile id) profile])
        (.done (.ok delivered)) b ∧
      delivered.url = publicUrl profile.hostUrl stored.url := by
  have hlimit : 0 < a.config.partSize := Nat.lt_of_lt_of_le Nat.one_pos (Nat.le_max_right _ _)
  obtain ⟨t, sink, b, hturn⟩ := exists_lastTurn R file location hlimit a
  have hclose := Run.of_external (R := R) (.closeUpload sink.upload) (.ok stored) b
  have hprofile := Run.of_currentProfile (R := R) profile b
  exact ⟨t, sink.upload, b.profile, _, b, Run.read_bind_iff.2 ⟨a, R.refl a,
    hturn.iterate_done.bind (hclose.bind (hprofile.bind (.refl _ _)))⟩, rfl⟩

/-- The link of a file that was stored under a path leads where the public URL leads, exactly if the path
names no authority, or one with the same host and port. If it names another, the link leads there, and
if what it names cannot be read, the link is no address at all. -/
theorem delivered_origin_iff [DomainMapping] [LawfulDomainMapping]
    (hrun : Run R (toStorage file location) a t (.done (.ok delivered)) b) :
    ∃ front upload stored id profile,
      t = front ++ [.answered (.closeUpload upload) (.ok stored), .answered (.profile id) profile] ∧
      ∀ base, ofString? profile.hostUrl = some base → base.isWeb = true →
        stored.url.toList.head? = some '/' →
        ∃ origin, base.origin? = some origin ∧
          (linkOrigin? delivered.url = some origin ↔ ∀ text, named? stored.url = some text →
            (authority? base.scheme text).map (Authority.origin base.scheme) = some origin) ∧
          ∀ text, named? stored.url = some text → linkOrigin? delivered.url =
            (authority? base.scheme text).map (Authority.origin base.scheme) := by
  obtain ⟨front, upload, stored, id, profile, rfl, hurl⟩ := delivered_url hrun
  refine ⟨front, upload, stored, id, profile, rfl, fun base hhost hweb hpath => ?_⟩
  obtain ⟨c, hc, -⟩ := (written_of_ofString? hhost hweb).authority
  have horigin : base.origin? = some (c.origin base.scheme) := by
    rw [origin?, hc, Option.map_some]
  have hlink := linkOrigin?_publicUrl hhost hweb hpath
  rw [← hurl, horigin] at hlink
  refine ⟨_, horigin, ?_, fun text htext => ?_⟩
  · rw [hlink]
    cases named? stored.url with
    | none => simp
    | some text => simp
  · rw [hlink, htext, Option.elim_some]

/-- A file in a folder, behind a public URL with credentials, an IPv6 address and a port of its own. -/
theorem delivered_origin_iff_folder :
    ∃ t delivered b,
      Run Others.nobody (toStorage {} default) default t (.done (.ok delivered)) b ∧
      delivered.url = "https://u:p@[2001:db8::1]:8443/files/a%20b.pdf" ∧
      linkOrigin? delivered.url = some ⟨"https", "[2001:db8::1]", some 8443⟩ := by
  obtain ⟨front, upload, id, delivered, b, hrun, hurl⟩ :=
    exists_delivered Others.nobody {} default default
      { hostUrl := "https://u:p@[2001:DB8:0:0::1]:8443/bot" } { url := "/files/a b.pdf" }
  obtain ⟨front', upload', stored, id', profile, ht, hlink⟩ := delivered_origin_iff hrun
  cases (List.append_inj' ht rfl).2
  have hbase : ofString? "https://u:p@[2001:DB8:0:0::1]:8443/bot" = some {
      scheme := "https"
      authority := some ⟨"u", "p", "[2001:db8::1]", some 8443⟩
      path := .segments ["bot"] } := by decide +kernel
  obtain ⟨origin, horigin, hiff, -⟩ := hlink _ hbase (by decide) (by decide)
  cases horigin
  refine ⟨_, delivered, b, hrun, hurl.trans (by decide +kernel), hiff.2 fun text htext => ?_⟩
  have hnone : named? "/files/a b.pdf" = none := by decide +kernel
  rw [hnone] at htext
  cases htext

/-- A path from the storage that begins with two slashes leads to another host. -/
theorem delivered_elsewhere :
    ∃ front upload id delivered b base,
      Run Others.nobody (toStorage {} default) default
        (front ++ [.answered (.closeUpload upload) (.ok { url := "//evil.example/x" }),
          .answered (.profile id) { hostUrl := "https://chat.example.com" }])
        (.done (.ok delivered)) b ∧
      ofString? "https://chat.example.com" = some base ∧ base.isWeb = true ∧
      delivered.url = "https://evil.example/x" ∧
      base.origin? = some ⟨"https", "chat.example.com", none⟩ ∧
      linkOrigin? delivered.url = some ⟨"https", "evil.example", none⟩ := by
  obtain ⟨front, upload, id, delivered, b, hrun, hurl⟩ :=
    exists_delivered Others.nobody {} default default
      { hostUrl := "https://chat.example.com" } { url := "//evil.example/x" }
  have hlink : delivered.url = "https://evil.example/x" := hurl.trans (by decide +kernel)
  have hbase : ofString? "https://chat.example.com" = some {
      scheme := "https"
      authority := some { host := "chat.example.com" }
      path := .segments [""] } := by decide +kernel
  refine ⟨front, upload, id, delivered, b, _, hrun, hbase, by decide, hlink, rfl, ?_⟩
  rw [hlink]
  decide +kernel

end Telebridge.Download
