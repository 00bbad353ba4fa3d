import RoveMapping.Library.Machine
import Mathlib

/-! # Runs paid for by a potential

Where every step pays for its label out of a potential, or out of what the step earns, a whole run costs no more than
the potential at its start and what it earned on the way.
-/
namespace Resumption
set_option autoImplicit false

variable {κ ℓ : Type} {next : κ → ℓ → Option κ} {ok : κ → ℓ → Prop} {inv : κ → Prop} {weight : ℓ → ℕ} {potential earned : κ → ℕ}

structure Pays (next : κ → ℓ → Option κ) (ok : κ → ℓ → Prop) (inv : κ → Prop) (weight : ℓ → ℕ) (potential earned : κ → ℕ) :
    Prop where
  keeps : ∀ k l k', inv k → ok k l → next k l = some k' → inv k'
  step : ∀ k l k', inv k → ok k l → next k l = some k' → weight l + potential k' + earned k ≤ potential k + earned k'

def total (weight : ℓ → ℕ) (labels : List ℓ) : ℕ := (labels.map weight).sum

variable [∀ k l, Decidable (ok k l)]

theorem Pays.replay (h : Pays next ok inv weight potential earned) {labels : List ℓ} {k k' : κ} (hInv : inv k)
    (hReplay : replay next ok labels k = some k') :
    inv k' ∧ total weight labels + potential k' + earned k ≤ potential k + earned k' := by
  induction labels generalizing k with
  | nil =>
    cases hReplay
    exact ⟨hInv, by simp [total]⟩
  | cons l rest ih =>
    rw [Resumption.replay] at hReplay
    split at hReplay
    · rename_i hOk
      obtain ⟨k₁, hNext, hRest⟩ := Option.bind_eq_some_iff.mp hReplay
      obtain ⟨hInv', hPaid⟩ := ih (h.keeps k l k₁ hInv hOk hNext) hRest
      have hStep := h.step k l k₁ hInv hOk hNext
      refine ⟨hInv', ?_⟩
      have hTotal : total weight (l :: rest) = weight l + total weight rest := by simp [total]
      omega
    · cases hReplay

end Resumption
