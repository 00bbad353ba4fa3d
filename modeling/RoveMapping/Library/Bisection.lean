import Mathlib.Data.Nat.Notation

/-! # Bisection

The search for a place where a property of the positions stops to hold. It needs no order: a
property that holds at the lower end and not at the upper one changes between two neighbours.
-/
namespace Bisection
set_option autoImplicit false

variable {n : ℕ}

def middle (lo hi : Fin n) : Fin n := ⟨(lo + hi) / 2, by omega⟩

/-- Halves the window between `lo` and `hi` until they are neighbours. -/
def bracket (p : Fin n → Bool) (lo hi : Fin n) : Fin n × Fin n :=
  if lo.val + 1 < hi.val then
    if p (middle lo hi) then bracket p (middle lo hi) hi else bracket p lo (middle lo hi)
  else (lo, hi)
termination_by hi.val - lo.val
decreasing_by
  all_goals
    simp only [middle]
    omega

/-- The invariant of the search: the property holds below the window and not above it. -/
structure Window (p : Fin n → Bool) (lo hi : Fin n) : Prop where
  ordered : lo.val < hi.val
  below : p lo = true
  above : p hi = false

theorem Window.lower {p : Fin n → Bool} {lo hi : Fin n} (h : Window p lo hi) (hWide : lo.val + 1 < hi.val)
    (hMiddle : p (middle lo hi) = true) : Window p (middle lo hi) hi where
  ordered := by
    simp only [middle]
    omega
  below := hMiddle
  above := h.above

theorem Window.upper {p : Fin n → Bool} {lo hi : Fin n} (h : Window p lo hi) (hWide : lo.val + 1 < hi.val)
    (hMiddle : ¬ p (middle lo hi) = true) : Window p lo (middle lo hi) where
  ordered := by
    simp only [middle]
    omega
  below := h.below
  above := by simpa using hMiddle

theorem bracket_window {p : Fin n → Bool} {lo hi : Fin n} (h : Window p lo hi) :
    Window p (bracket p lo hi).1 (bracket p lo hi).2 ∧ (bracket p lo hi).2.val = (bracket p lo hi).1.val + 1 := by
  fun_induction bracket p lo hi with
  | case1 lo hi hWide hMiddle ih => exact ih (h.lower hWide hMiddle)
  | case2 lo hi hWide hMiddle ih => exact ih (h.upper hWide hMiddle)
  | case3 lo hi hNarrow =>
    have hOrdered := h.ordered
    refine ⟨h, ?_⟩
    dsimp only
    omega

end Bisection
