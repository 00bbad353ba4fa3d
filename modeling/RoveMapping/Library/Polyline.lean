import Mathlib.Algebra.BigOperators.Group.List.Basic
import Mathlib.Topology.MetricSpace.Pseudo.Basic

/-! # Polylines in a metric space -/
namespace Polyline
set_option autoImplicit false

section Steps

variable {α β : Type}

/-- The pairs of neighbours along a list of points. -/
def steps (points : List α) : List (α × α) := points.zip points.tail

@[simp] theorem steps_singleton (x : α) : steps [x] = [] := rfl

@[simp] theorem steps_cons (x y : α) (rest : List α) : steps (x :: y :: rest) = (x, y) :: steps (y :: rest) := rfl

theorem steps_map (f : α → β) (points : List α) : steps (points.map f) = (steps points).map (Prod.map f f) := by
  rw [steps, ← List.map_tail, List.zip_map]
  rfl

theorem steps_concat (x y : α) (points : List α) : steps (points ++ [x, y]) = steps (points ++ [x]) ++ [(x, y)] := by
  induction points with
  | nil => rfl
  | cons first rest ih =>
    cases rest with
    | nil => rfl
    | cons second rest =>
      simp only [List.cons_append, steps_cons] at ih ⊢
      rw [ih]

theorem steps_reverse (points : List α) : steps points.reverse = ((steps points).map Prod.swap).reverse := by
  induction points with
  | nil => rfl
  | cons first rest ih =>
    cases rest with
    | nil => rfl
    | cons second rest =>
      rw [List.reverse_cons, List.reverse_cons, List.append_assoc, List.singleton_append, steps_concat,
        ← List.reverse_cons, ih]
      simp

end Steps

section Length

variable {α : Type} [PseudoMetricSpace α]

noncomputable def length (points : List α) : ℝ := ((steps points).map fun step => dist step.1 step.2).sum

theorem length_reverse (points : List α) : length points.reverse = length points := by
  simp [length, steps_reverse, List.sum_reverse, Function.comp_def, dist_comm]

theorem length_map_congr {β : Type} {f g : β → α} (h : ∀ x y, dist (f x) (f y) = dist (g x) (g y)) (points : List β) :
    length (points.map f) = length (points.map g) := by
  simp [length, steps_map, Function.comp_def, h]

/-- The polygon inequality. -/
theorem dist_le_length (first : α) (rest : List α) : dist first (rest.getLastD first) ≤ length (first :: rest) := by
  induction rest generalizing first with
  | nil => simp [length]
  | cons second rest ih =>
    calc
      dist first ((second :: rest).getLastD first) = dist first (rest.getLastD second) := by rw [List.getLastD_cons]
      _ ≤ dist first second + dist second (rest.getLastD second) := dist_triangle _ _ _
      _ ≤ dist first second + length (second :: rest) := add_le_add_right (ih second) _
      _ = length (first :: second :: rest) := by simp [length]

end Length
end Polyline
