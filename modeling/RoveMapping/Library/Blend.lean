import Mathlib.Analysis.Convex.Basic
import Mathlib.Algebra.Order.BigOperators.Group.List
import Mathlib.Algebra.Order.Floor.Ring
import Mathlib.Tactic.Ring
import Mathlib.Tactic.Linarith

/-! # Bilinear and weighted averages

Both stay between the bounds of the values they average.
-/
namespace Blend
set_option autoImplicit false

variable {K : Type} [Field K]

def lerp (t x y : K) : K := (1 - t) * x + t * y

def bilinear (du dv c00 c10 c01 c11 : K) : K :=
  (1 - du) * (1 - dv) * c00 + du * (1 - dv) * c10 + (1 - du) * dv * c01 + du * dv * c11

theorem bilinear_eq_lerp (du dv c00 c10 c01 c11 : K) :
    bilinear du dv c00 c10 c01 c11 = lerp dv (lerp du c00 c10) (lerp du c01 c11) := by
  simp only [bilinear, lerp]
  ring

def weight (samples : List (K × K)) : K := (samples.map Prod.fst).sum

def total (samples : List (K × K)) : K := (samples.map fun s => s.1 * s.2).sum

def mean (samples : List (K × K)) : K := total samples / weight samples

@[simp] theorem weight_nil : weight ([] : List (K × K)) = 0 := rfl

@[simp] theorem total_nil : total ([] : List (K × K)) = 0 := rfl

@[simp] theorem weight_cons (s : K × K) (samples : List (K × K)) :
    weight (s :: samples) = s.1 + weight samples := List.sum_cons

@[simp] theorem total_cons (s : K × K) (samples : List (K × K)) :
    total (s :: samples) = s.1 * s.2 + total samples := List.sum_cons

@[simp] theorem weight_append (samples samples' : List (K × K)) :
    weight (samples ++ samples') = weight samples + weight samples' := by simp [weight]

@[simp] theorem total_append (samples samples' : List (K × K)) :
    total (samples ++ samples') = total samples + total samples' := by simp [total]

section Bounds

variable [LinearOrder K] [IsStrictOrderedRing K] {a b : K}

theorem lerp_mem {t x y : K} (ht : t ∈ Set.Icc 0 1) (hx : x ∈ Set.Icc a b) (hy : y ∈ Set.Icc a b) :
    lerp t x y ∈ Set.Icc a b := by
  have hConvex : Convex K (Set.Icc a b) := convex_Icc a b
  exact hConvex hx hy (sub_nonneg.mpr ht.2) ht.1 (sub_add_cancel 1 t)

theorem bilinear_mem {du dv c00 c10 c01 c11 : K} (hu : du ∈ Set.Icc 0 1) (hv : dv ∈ Set.Icc 0 1)
    (h00 : c00 ∈ Set.Icc a b) (h10 : c10 ∈ Set.Icc a b) (h01 : c01 ∈ Set.Icc a b) (h11 : c11 ∈ Set.Icc a b) :
    bilinear du dv c00 c10 c01 c11 ∈ Set.Icc a b := by
  rw [bilinear_eq_lerp]
  exact lerp_mem hv (lerp_mem hu h00 h10) (lerp_mem hu h01 h11)

theorem weight_pos {samples : List (K × K)} (hPositive : ∀ s ∈ samples, 0 < s.1) (hSome : samples ≠ []) :
    0 < weight samples := by
  refine List.sum_pos _ ?_ (by simpa using hSome)
  intro w hw
  obtain ⟨s, hs, rfl⟩ := List.mem_map.mp hw
  exact hPositive s hs

/-- The weighted sum lies between the bounds times the sum of the weights. -/
theorem total_bounds {samples : List (K × K)} (hWeight : ∀ s ∈ samples, 0 ≤ s.1)
    (hValue : ∀ s ∈ samples, s.2 ∈ Set.Icc a b) :
    a * weight samples ≤ total samples ∧ total samples ≤ b * weight samples := by
  induction samples with
  | nil => simp
  | cons s samples ih =>
      obtain ⟨hLower, hUpper⟩ := ih (fun x hx => hWeight x (.tail _ hx)) fun x hx => hValue x (.tail _ hx)
      have hHead := hWeight s (.head _)
      obtain ⟨ha, hb⟩ := hValue s (.head _)
      have hLowerHead : a * s.1 ≤ s.1 * s.2 := by
        rw [mul_comm]
        exact mul_le_mul_of_nonneg_left ha hHead
      have hUpperHead : s.1 * s.2 ≤ b * s.1 := by
        rw [mul_comm b]
        exact mul_le_mul_of_nonneg_left hb hHead
      rw [weight_cons, total_cons, mul_add, mul_add]
      exact ⟨add_le_add hLowerHead hLower, add_le_add hUpperHead hUpper⟩

theorem mean_mem {samples : List (K × K)} (hPositive : ∀ s ∈ samples, 0 < s.1) (hSome : samples ≠ [])
    (hValue : ∀ s ∈ samples, s.2 ∈ Set.Icc a b) : mean samples ∈ Set.Icc a b := by
  obtain ⟨hLower, hUpper⟩ := total_bounds (fun s hs => (hPositive s hs).le) hValue
  have hWeight := weight_pos hPositive hSome
  exact ⟨(le_div_iff₀ hWeight).mpr hLower, (div_le_iff₀ hWeight).mpr hUpper⟩

theorem mean_eq {samples : List (K × K)} (hPositive : ∀ s ∈ samples, 0 < s.1) (hSome : samples ≠ [])
    (hValue : ∀ s ∈ samples, s.2 = a) : mean samples = a := by
  have hMem : mean samples ∈ Set.Icc a a := mean_mem hPositive hSome fun s hs => by simp [hValue s hs]
  simpa using hMem

/-- The bilinear average of the four cells around a point of a grid. -/
def interpolate [FloorRing K] (grid : ℕ → ℕ → K) (u v : K) : K :=
  let c := ⌊u⌋.toNat
  let r := ⌊v⌋.toNat
  bilinear (u - ⌊u⌋) (v - ⌊v⌋) (grid r c) (grid r (c + 1)) (grid (r + 1) c) (grid (r + 1) (c + 1))

theorem interpolate_mem [FloorRing K] {grid : ℕ → ℕ → K} (hGrid : ∀ r c, grid r c ∈ Set.Icc a b) (u v : K) :
    interpolate grid u v ∈ Set.Icc a b := by
  have hFract : ∀ x : K, x - ⌊x⌋ ∈ Set.Icc (0 : K) 1 := fun x => ⟨Int.fract_nonneg x, (Int.fract_lt_one x).le⟩
  exact bilinear_mem (hFract u) (hFract v) (hGrid _ _) (hGrid _ _) (hGrid _ _) (hGrid _ _)

theorem interpolate_const [FloorRing K] {grid : ℕ → ℕ → K} (hGrid : ∀ r c, grid r c = a) (u v : K) :
    interpolate grid u v = a := by
  have hMem : interpolate grid u v ∈ Set.Icc a a := interpolate_mem (fun r c => by simp [hGrid]) u v
  simpa using hMem

end Bounds

end Blend
