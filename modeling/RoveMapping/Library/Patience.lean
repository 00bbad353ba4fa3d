import Mathlib.Algebra.Order.Ring.Nat
import Mathlib.Tactic.Ring

/-! # Attempts with patience

A loop that makes progress at most `left` more times, and gives up after `m` attempts in a row without any,
has a budget of attempts. An attempt that makes progress clears the count of those that waited.
-/
namespace Patience
set_option autoImplicit false

/-- The attempts that remain when the last `waited` of them made no progress. -/
def budget (m left waited : ℕ) : ℕ := m * left - waited

@[simp] theorem budget_start (m left : ℕ) : budget m left 0 = m * left := Nat.sub_zero _

variable {m left waited : ℕ}

theorem waited_lt (hWaited : waited < m) (hLeft : 0 < left) : waited < m * left :=
  hWaited.trans_le (Nat.le_mul_of_pos_right m hLeft)

theorem budget_pos (hWaited : waited < m) (hLeft : 0 < left) : 0 < budget m left waited :=
  Nat.sub_pos_of_lt (waited_lt hWaited hLeft)

theorem budget_wait (hWaited : waited < m) (hLeft : 0 < left) : budget m left (waited + 1) + 1 ≤ budget m left waited := by
  have hLt := waited_lt hWaited hLeft
  unfold budget
  omega

theorem budget_progress {left' : ℕ} (hWaited : waited < m) (hLeft : left' < left) :
    budget m left' 0 + 1 ≤ budget m left waited := by
  have hStep : m * (left' + 1) ≤ m * left := Nat.mul_le_mul_left m hLeft
  rw [Nat.mul_succ] at hStep
  unfold budget
  omega

end Patience
