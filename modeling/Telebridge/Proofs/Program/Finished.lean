import Telebridge.Proofs.Program.Turns
set_option autoImplicit false

/-! # Finished runs

What the finished runs of a program are, read off the way it is built: one equivalence for each of the
ways in which straight programs go on. -/

namespace Telebridge.Program.Run

variable {R : Others} {α β : Type} {a b : Account} {t : List Event} {x : α}

theorem done_iff {r : α} : Run R (.done r) a t (.done x) b ↔ t = [] ∧ r = x ∧ R.may a b := by
  constructor
  · intro hrun
    obtain ⟨rfl, hx, hb⟩ := hrun.done_inv
    cases hx
    exact ⟨rfl, rfl, hb⟩
  · rintro ⟨rfl, rfl, hb⟩
    exact .stop hb

/-- First a finished run of the first part, then one of the rest. -/
theorem bind_iff {p : Program β} {f : β → Program α} :
    Run R (p >>= f) a t (.done x) b ↔
      ∃ r t₁ t₂ a₁, t = t₁ ++ t₂ ∧ Run R p a t₁ (.done r) a₁ ∧ Run R (f r) a₁ t₂ (.done x) b := by
  constructor
  · intro hrun
    exact hrun.bind_done
  · rintro ⟨r, t₁, t₂, a₁, rfl, hp, hf⟩
    exact hp.bind hf

/-- Where nothing but an answer follows. -/
theorem map_iff {p : Program β} {f : β → α} :
    Run R (p >>= fun r => .done (f r)) a t (.done x) b ↔ ∃ r, f r = x ∧ Run R p a t (.done r) b := by
  rw [bind_iff]
  constructor
  · rintro ⟨r, t₁, t₂, a₁, rfl, hp, hf⟩
    obtain ⟨rfl, hx, hb⟩ := done_iff.1 hf
    rw [List.append_nil]
    exact ⟨r, hx, hp.before_others hb⟩
  · rintro ⟨r, hx, hp⟩
    exact ⟨r, t, [], b, by simp, hp, done_iff.2 ⟨rfl, hx, R.refl b⟩⟩

theorem external_bind_iff {e : External β} {f : β → Program α} :
    Run R (external e >>= f) a t (.done x) b ↔
      ∃ r u a₁, R.may a a₁ ∧ t = .answered e r :: u ∧ Run R (f r) a₁ u (.done x) b := by
  constructor
  · intro hrun
    obtain ⟨r, t₁, u, a₁, rfl, hexternal, hf⟩ := hrun.bind_done
    obtain ⟨rfl, ha₁⟩ := hexternal.external_done
    exact ⟨r, u, a₁, ha₁, rfl, hf⟩
  · rintro ⟨r, u, a₁, ha₁, rfl, hf⟩
    exact ((of_external e r a).before_others ha₁).bind hf

theorem read_bind_iff {g : Account → β} {f : β → Program α} :
    Run R (read g >>= f) a t (.done x) b ↔
      ∃ a₁, R.may a a₁ ∧ Run R (f (g a₁)) a₁ t (.done x) b := by
  constructor
  · intro hrun
    obtain ⟨r, t₁, u, a₂, rfl, hread, hf⟩ := hrun.bind_done
    obtain ⟨rfl, a₁, ha₁, rfl, ha₂⟩ := hread.read_done
    exact ⟨a₁, ha₁, hf.after_others ha₂⟩
  · rintro ⟨a₁, ha₁, hf⟩
    have hread : Run R (read g) a₁ [] (.done (g a₁)) a₁ := of_await rfl
    exact (hread.after_others ha₁).bind hf

theorem update_bind_iff {g : Account → Account} {f : Unit → Program α} :
    Run R (update g >>= f) a t (.done x) b ↔
      ∃ a₁, R.may a a₁ ∧ Run R (f ()) (g a₁) t (.done x) b := by
  constructor
  · intro hrun
    obtain ⟨_, t₁, u, a₂, rfl, hupdate, hf⟩ := hrun.bind_done
    obtain ⟨rfl, a₁, ha₁, ha₂⟩ := hupdate.update_done
    exact ⟨a₁, ha₁, hf.after_others ha₂⟩
  · rintro ⟨a₁, ha₁, hf⟩
    have hupdate : Run R (update g) a₁ [] (.done ()) (g a₁) := of_await rfl
    exact (hupdate.after_others ha₁).bind hf

/-- The profile of the account, as it is answered. -/
theorem of_currentProfile (profile : Profile) (a : Account) :
    Run R currentProfile a [.answered (.profile a.profile) profile] (.done profile) a :=
  read_bind_iff.2 ⟨a, R.refl a, .of_external (.profile a.profile) profile a⟩

end Telebridge.Program.Run
