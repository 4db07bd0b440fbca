import Telebridge.Inbound.Handler
import Telebridge.Proofs.Transfer.DownloadConduct
set_option autoImplicit false

/-! # The conduct of the handler

Whatever it is answered, the handler of a batch asks for users, for parts of files and for read marks,
and for nothing else (`Asks`, `conforms_handle`). None of these promises updates. It comes to its end
wherever downloads do (`handle_ends`). -/

namespace Telebridge.Inbound

open Program

variable {R G : Others}

/-! ## Delivery in two parts -/

/-- The name for the picture of a sticker. -/
def pictureName (m : Message) : Program String :=
  if isStickerMessage m then (fun id => id ++ ".webp") <$> external .uuid else .done ""

/-- Fetches what a message brings, and hands it to its conversation. -/
def handOver (m : Message) (user : User) (profile : ProfileId) (channel : Envelope.Channel) :
    Program (Except InboundError Unit) :=
  pictureName m >>= fun name => fetch (content m user.id channel name) >>= fun
    | none => .done (.ok ())
    | some body =>
      external (.deliver profile (address body m (contactOf user) channel)) >>= fun
        | .ok () => .done (.ok ())
        | .error e => .done (.error (.gateway e))

/-- A message is delivered by opening its conversation and handing it over. -/
theorem deliver_eq (m : Message) (user : User) :
    deliver m user = Program.read Account.profile >>= fun profile =>
      external (.getChannel profile (contactOf user).contact (contactOf user)) >>= fun
        | .error e => .done (.error (.gateway e))
        | .ok channel => handOver m user profile channel := by
  unfold deliver
  dsimp only
  congr 1
  funext profile
  congr 1
  funext answer
  cases answer with
  | error e => rfl
  | ok channel =>
    simp only [handOver, pictureName]
    split <;> rfl

/-! ## What handling shows -/

/-- The requests that the handler makes. -/
def Asks : Request → Prop
  | .getUsers _ | .getFile _ | .readHistory _ _ => True
  | _ => False

theorem asks_iff {request : Request} : Asks request ↔
    (∃ ids, request = .getUsers ids) ∨ (∃ query, request = .getFile query) ∨
      ∃ peer maxId, request = .readHistory peer maxId := by
  cases request <;> simp [Asks]

/-- None of them promises updates. -/
theorem Asks.no_updates {request : Request} (h : Asks request) : request.expected ≠ .updates := by
  cases request <;> first | exact h.elim | simp [Request.expected]

/-- The event can belong to the handling of a batch. -/
def Handling : Event → Prop
  | .answered (.call request) _ => Asks request
  | .dispatched _ _ => False
  | _ => True

theorem Handling.of_downloading {e : Event} (h : Download.Downloading e) : Handling e := by
  cases h <;> trivial

/-- The others may know of everything that an answer to the handler does to the account. -/
def Permits (G : Others) : Prop :=
  ∀ request answer a, Asks request → request.Accepts answer →
    G.may a (Pipeline.learn request answer a)

theorem conforms_findUser (hG : Permits G) {id : Int64} :
    (findUser id).Conforms R G Event.Typed Handling := by
  refine Conforms.bind conforms_read fun found => ?_
  cases found with
  | some user => exact conforms_done _
  | none =>
    refine Conforms.bind conforms_read fun hash => ?_
    refine conforms_typed_call_bind (by simp [Request.expected]) fun answer hanswer =>
      ⟨trivial, fun a => hG _ answer a trivial hanswer, ?_⟩
    split <;> exact conforms_done _

section

variable {heard shown : Event → Prop}

theorem conforms_fetch (h : Download.Admits R G heard shown) (content : Content) :
    (fetch content).Conforms R G heard shown := by
  cases content with
  | nothing => exact conforms_done _
  | message m => exact conforms_done _
  | file f =>
    refine Conforms.bind h.conforms_toStorage fun r => ?_
    cases r <;> exact conforms_done _

theorem conforms_pictureName (h : Download.Admits R G heard shown) {m : Message} :
    (pictureName m).Conforms R G heard shown := by
  unfold pictureName
  split
  · exact Conforms.bind (conforms_external fun text _ => h.shows _ (.uuid text)) fun _ =>
      conforms_done _
  · exact conforms_done _

theorem conforms_handOver (h : Download.Admits R G heard shown) {m : Message} {user : User}
    {profile : ProfileId} {channel : Envelope.Channel}
    (hhand : ∀ update answer, update.chat = channel →
      shown (.answered (.deliver profile update) answer)) :
    (handOver m user profile channel).Conforms R G heard shown := by
  refine Conforms.bind (conforms_pictureName h) fun name => ?_
  refine Conforms.bind (conforms_fetch h _) fun body => ?_
  cases body with
  | none => exact conforms_done _
  | some body =>
    refine conforms_external_bind fun answer _ => ⟨hhand _ answer rfl, ?_⟩
    cases answer <;> exact conforms_done _

/-- A delivery downloads, opens the conversation with the sender, and hands something to what it was
given as this conversation. -/
theorem conforms_deliver (h : Download.Admits R G heard shown) (m : Message) (user : User)
    (hopen : ∀ profile answer,
      shown (.answered (.getChannel profile (Text.showInt64 user.id) (contactOf user)) answer))
    (hhand : ∀ profile channel,
      heard (.answered (.getChannel profile (Text.showInt64 user.id) (contactOf user)) (.ok channel)) →
      ∀ update answer, update.chat = channel → shown (.answered (.deliver profile update) answer)) :
    (deliver m user).Conforms R G heard shown := by
  rw [deliver_eq]
  refine Conforms.bind conforms_read fun profile => ?_
  refine conforms_external_bind fun answer hanswer => ⟨hopen profile answer, ?_⟩
  cases answer with
  | error e => exact conforms_done _
  | ok channel => exact conforms_handOver h (hhand profile channel hanswer)

end

theorem Permits.admits (hG : Permits G) : Download.Admits R G Event.Typed Handling where
  shows _ := Handling.of_downloading
  part hf := conforms_typed_call_bind (by simp [Request.expected]) fun answer hanswer =>
    ⟨trivial, fun a => hG _ answer a trivial hanswer, hf _⟩

theorem conforms_markRead (hG : Permits G) (m : Message) :
    (markRead m).Conforms R G Event.Typed Handling := by
  refine Conforms.bind conforms_read fun peer => ?_
  exact conforms_typed_call_bind (by simp [Request.expected]) fun answer hanswer =>
    ⟨trivial, fun a => hG _ answer a trivial hanswer, conforms_done _⟩

theorem conforms_handleMessage (hG : Permits G) (m : Message) :
    (handleMessage m).Conforms R G Event.Typed Handling := by
  unfold handleMessage
  split
  · exact conforms_done _
  · refine Conforms.bind (conforms_findUser hG) fun found => ?_
    cases found with
    | none => exact conforms_done _
    | some user =>
      dsimp only
      split
      · exact conforms_done _
      · refine Conforms.bind (conforms_deliver hG.admits m user (fun _ _ => trivial)
          fun _ _ _ _ _ _ => trivial) fun outcome => ?_
        exact Conforms.bind (conforms_markRead hG m) fun _ => conforms_done _

theorem conforms_handleMessages (hG : Permits G) (messages : List Message) :
    (handleMessages messages).Conforms R G Event.Typed Handling := by
  induction messages with
  | nil => exact conforms_done _
  | cons m rest ih =>
    refine Conforms.bind (conforms_handleMessage hG m) fun first => ?_
    exact Conforms.bind ih fun others => conforms_done _

/-- Handling a batch asks for users, parts of files and read marks only, and hands nothing over. -/
theorem conforms_handle (hG : Permits G) (updates : Updates) :
    (handle updates).Conforms R G Event.Typed Handling :=
  conforms_handleMessages hG _

/-! ## That it ends -/

variable {bound : Nat} {env : Environment} {t : List Event} {a : Account}

theorem findUser_ends (henv : Download.Responsive bound env) {id : Int64} :
    Returns R env (fun _ _ _ => True) (findUser id) t a := by
  refine Returns.read fun a₁ _ => ?_
  cases a₁.peers.findUser? id with
  | some user => exact .done fun _ _ => trivial
  | none =>
    refine Returns.read fun a₂ _ => ?_
    refine Returns.typed_call (by simp [Request.expected]) henv.typed (henv.answers _ _) ?_
    intro answer a₃ a₄ _ _ _ _
    split <;> exact .done fun _ _ => trivial

theorem fetch_ends (henv : Download.Responsive bound env) (content : Content) :
    Returns R env (fun _ _ _ => True) (fetch content) t a := by
  cases content with
  | nothing => exact .done fun _ _ => trivial
  | message m => exact .done fun _ _ => trivial
  | file f =>
    refine Returns.bind (Download.toStorage_ends henv) fun r t₁ a₁ _ => ?_
    cases r <;> exact .done fun _ _ => trivial

theorem handOver_ends (henv : Download.Responsive bound env) {m : Message} {user : User}
    {profile : ProfileId} {channel : Envelope.Channel} :
    Returns R env (fun _ _ _ => True) (handOver m user profile channel) t a := by
  have hname : Returns R env (fun _ _ _ => True) (pictureName m) t a := by
    unfold pictureName
    split
    · exact Returns.external (henv.answers _ _) fun _ _ _ _ => .done fun _ _ => trivial
    · exact .done fun _ _ => trivial
  refine Returns.bind hname fun name t₁ a₁ _ => ?_
  refine Returns.bind (fetch_ends henv _) fun body t₂ a₂ _ => ?_
  cases body with
  | none => exact .done fun _ _ => trivial
  | some body =>
    refine Returns.external (henv.answers _ _) fun answer a₃ _ _ => ?_
    cases answer <;> exact .done fun _ _ => trivial

theorem deliver_ends (henv : Download.Responsive bound env) (m : Message) (user : User) :
    Returns R env (fun _ _ _ => True) (deliver m user) t a := by
  rw [deliver_eq]
  refine Returns.read fun a₁ _ => ?_
  refine Returns.external (henv.answers _ _) fun answer a₂ _ _ => ?_
  cases answer with
  | error e => exact .done fun _ _ => trivial
  | ok channel => exact handOver_ends henv

theorem markRead_ends (henv : Download.Responsive bound env) (m : Message) :
    Returns R env (fun _ _ _ => True) (markRead m) t a := by
  refine Returns.read fun a₁ _ => ?_
  exact Returns.typed_call (by simp [Request.expected]) henv.typed (henv.answers _ _)
    fun _ _ _ _ _ _ _ => .done fun _ _ => trivial

theorem handleMessage_ends (henv : Download.Responsive bound env) (m : Message) :
    Returns R env (fun _ _ _ => True) (handleMessage m) t a := by
  unfold handleMessage
  split
  · exact .done fun _ _ => trivial
  · refine Returns.bind (findUser_ends henv) fun found t₁ a₁ _ => ?_
    cases found with
    | none => exact .done fun _ _ => trivial
    | some user =>
      dsimp only
      split
      · exact .done fun _ _ => trivial
      · refine Returns.bind (deliver_ends henv m user) fun outcome t₂ a₂ _ => ?_
        exact Returns.bind (markRead_ends henv m) fun _ _ _ _ => .done fun _ _ => trivial

theorem handleMessages_ends (henv : Download.Responsive bound env) (messages : List Message)
    {t : List Event} {a : Account} :
    Returns R env (fun _ _ _ => True) (handleMessages messages) t a := by
  induction messages generalizing t a with
  | nil => exact .done fun _ _ => trivial
  | cons m rest ih =>
    refine Returns.bind (handleMessage_ends henv m) fun first t₁ a₁ _ => ?_
    exact Returns.bind ih fun others t₂ a₂ _ => .done fun _ _ => trivial

/-- The handling of a batch comes to its end. -/
theorem handle_ends (henv : Download.Responsive bound env) (updates : Updates) :
    Returns R env (fun _ _ _ => True) (handle updates) t a :=
  handleMessages_ends henv _

/-- Surroundings in which calls are answered with what they promise, and no download goes on. -/
def calm : Environment := fun _ e => e.Typed ∧ ¬ Download.prolongs e

theorem calm_responsive : Download.Responsive 0 calm where
  typed _ _ h := h.1
  answers t β e := by
    cases e with
    | call request => exact ⟨.error .dropped, trivial, by cases request <;> exact Bool.false_ne_true⟩
    | connect => exact ⟨(), trivial, Bool.false_ne_true⟩
    | linkEvent => exact ⟨.unreported, trivial, Bool.false_ne_true⟩
    | authorize _ _ | setMetadata _ _ | deliver _ _ | sendFrame _ _ =>
      exact ⟨.ok (), trivial, Bool.false_ne_true⟩
    | fetch _ => exact ⟨.error .unparsable, trivial, Bool.false_ne_true⟩
    | nextChunk _ => exact ⟨.ok none, trivial, Bool.false_ne_true⟩
    | randomId => exact ⟨0, trivial, Bool.false_ne_true⟩
    | getChannel _ _ _ | openUpload _ | closeUpload _ =>
      exact ⟨.ok default, trivial, Bool.false_ne_true⟩
    | profile _ | randomBytes _ | uuid | now => exact ⟨default, trivial, Bool.false_ne_true⟩
  wakes _ _ := ⟨.elapsed, trivial, Bool.false_ne_true⟩
  bounded _ _ h hp := absurd hp h.2

end Telebridge.Inbound
