import Telebridge.Proofs.Program.Conduct
import Telebridge.Proofs.Program.Turns
set_option autoImplicit false

/-! # The right side of a race

A run of a race that goes on is, seen from its right side, a run of that side alone: what the left side
does to the account is what one more of the others does (`Run.right_of_either`). A right side that has
two parts begins with the first (`Run.either_bind_right`). -/

namespace Telebridge.Program

variable {R G K : Others} {heard shown : Event → Prop} {β γ : Type}

/-- As long as both sides go on, the right side runs among the others and the left side. -/
theorem Run.right_of_either {p p' : Program β} {q q' : Program γ} {a b : Account} {t : List Event}
    (h : Run R (either p q) a t (either p' q') b) (hp : p.Conforms R G heard shown)
    (ht : ∀ e ∈ t, heard e) (hR : ∀ a b, R.may a b → K.may a b)
    (hG : ∀ a b, G.may a b → K.may a b) :
    p'.Conforms R G heard shown ∧ ∃ u, u.Sublist t ∧ Run K q a u q' b := by
  generalize hr : either p q = r at h
  generalize hr' : either p' q' = r' at h
  induction h generalizing p q with
  | stop hab =>
    subst hr
    cases hr'
    exact ⟨hp, [], .slnil, .stop (hR _ _ hab)⟩
  | @step _ _ _ _ a₁ a₂ _ es t hab hs hrun ih =>
    subst hr
    have ht₁ : ∀ e ∈ es, heard e := fun e he => ht e (List.mem_append_left t he)
    have ht₂ : ∀ e ∈ t, heard e := fun e he => ht e (List.mem_append_right es he)
    obtain ⟨p₁, hs, rfl⟩ | ⟨q₁, hs, rfl⟩ | ⟨x, rfl, rfl, rfl, rfl⟩ | ⟨y, rfl, rfl, rfl, rfl⟩ := hs
    · obtain ⟨ha₂, -, hp₁⟩ := hs.conforms hp ht₁
      obtain ⟨hp', u, hu, hright⟩ := ih hp₁ ht₂ rfl hr'
      exact ⟨hp', u, hu.trans (List.sublist_append_right es t),
        hright.after_others (K.trans (hR _ _ hab) (hG _ _ ha₂))⟩
    · obtain ⟨hp', u, hu, hright⟩ := ih hp ht₂ rfl hr'
      exact ⟨hp', es ++ u, (List.Sublist.refl es).append hu,
        .step (hR _ _ hab) (hs.mono hR) hright⟩
    · subst hr'
      cases hrun.done_inv.2.1
    · subst hr'
      cases hrun.done_inv.2.1

/-- A finished race went on until one of its sides was done. -/
theorem Run.either_done {p : Program β} {q : Program γ} {o : β ⊕ γ} {a b : Account} {t : List Event}
    (h : Run R (either p q) a t (.done o) b) :
    ∃ p' q' a₁, Run R (either p q) a t (either p' q') a₁ ∧ R.may a₁ b ∧
      ((∃ x, p' = .done x ∧ o = .inl x) ∨ ∃ y, q' = .done y ∧ o = .inr y) := by
  generalize hr : either p q = r at h
  generalize ho : Program.done o = r' at h
  induction h generalizing p q with
  | stop _ =>
    subst hr
    cases ho
  | @step _ _ _ _ a₁ a₂ _ es t hab hs hrun ih =>
    subst hr
    obtain ⟨p₁, hs, rfl⟩ | ⟨q₁, hs, rfl⟩ | ⟨x, rfl, rfl, rfl, rfl⟩ | ⟨y, rfl, rfl, rfl, rfl⟩ := hs
    · obtain ⟨p', q', a₃, hgoes, hb, hside⟩ := ih rfl ho
      have hs' : Step R (either p q) a₁ es (either p₁ q) a₂ := .inl ⟨p₁, hs, rfl⟩
      exact ⟨p', q', a₃, .step hab hs' hgoes, hb, hside⟩
    · obtain ⟨p', q', a₃, hgoes, hb, hside⟩ := ih rfl ho
      have hs' : Step R (either p q) a₁ es (either p q₁) a₂ := .inr (.inl ⟨q₁, hs, rfl⟩)
      exact ⟨p', q', a₃, .step hab hs' hgoes, hb, hside⟩
    · subst ho
      obtain ⟨rfl, ho, hb⟩ := hrun.done_inv
      cases ho
      exact ⟨.done x, q, _, .stop hab, hb, .inl ⟨x, rfl, rfl⟩⟩
    · subst ho
      obtain ⟨rfl, ho, hb⟩ := hrun.done_inv
      cases ho
      exact ⟨p, .done y, _, .stop hab, hb, .inr ⟨y, rfl, rfl⟩⟩

/-- A race gives what one of its sides gives. -/
theorem Run.either_gives {P : β → Prop} {Q : γ → Prop} {p : Program β} {q : Program γ} {o : β ⊕ γ}
    {a b : Account} {t : List Event} (h : Run R (either p q) a t (.done o) b) (hp : Gives P p)
    (hq : Gives Q q) : Sum.elim P Q o := by
  generalize hr : either p q = r at h
  generalize ho : Program.done o = r' at h
  induction h generalizing p q with
  | stop _ =>
    subst hr
    cases ho
  | step _ hs hrun ih =>
    subst hr
    obtain ⟨p', hs, rfl⟩ | ⟨q', hs, rfl⟩ | ⟨x, rfl, rfl, rfl, rfl⟩ | ⟨y, rfl, rfl, rfl, rfl⟩ := hs
    · exact ih (hs.gives hp) hq rfl ho
    · exact ih hp (hs.gives hq) rfl ho
    · subst ho
      cases hrun.done_inv.2.1
      exact hp
    · subst ho
      cases hrun.done_inv.2.1
      exact hq

/-! ## A right side in two parts -/

variable {δ : Type}

/-- While the second part has nothing to do, it makes no difference. -/
theorem Run.either_bind_right {p p' : Program β} {q q' : Program γ} {a b : Account}
    {t : List Event} (f : γ → Program δ) (h : Run R (either p q) a t (either p' q') b) :
    Run R (either p (q.bind f)) a t (either p' (q'.bind f)) b := by
  generalize hr : either p q = r at h
  generalize hr' : either p' q' = r' at h
  induction h generalizing p q with
  | stop hab =>
    subst hr
    cases hr'
    exact .stop hab
  | @step _ _ _ _ a₁ a₂ _ es t hab hs hrun ih =>
    subst hr
    obtain ⟨p₁, hs, rfl⟩ | ⟨q₁, hs, rfl⟩ | ⟨x, rfl, rfl, rfl, rfl⟩ | ⟨y, rfl, rfl, rfl, rfl⟩ := hs
    · have hs' : Step R (either p (q.bind f)) a₁ es (either p₁ (q.bind f)) a₂ := .inl ⟨p₁, hs, rfl⟩
      exact .step hab hs' (ih rfl hr')
    · have hs' : Step R (either p (q.bind f)) a₁ es (either p (q₁.bind f)) a₂ :=
        .inr (.inl ⟨q₁.bind f, hs.bind f, rfl⟩)
      exact .step hab hs' (ih rfl hr')
    · subst hr'
      cases hrun.done_inv.2.1
    · subst hr'
      cases hrun.done_inv.2.1

end Telebridge.Program
