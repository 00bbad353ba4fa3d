import Mathlib.Analysis.SpecialFunctions.Sqrt
import Mathlib.LinearAlgebra.Matrix.Determinant.Basic
import Mathlib.LinearAlgebra.Matrix.Notation
import Mathlib.LinearAlgebra.UnitaryGroup
import Mathlib.Tactic.FieldSimp
import Mathlib.Tactic.LinearCombination

/-! # Rotation matrices and quaternions

`_quat_to_R` and `_R_to_quat` of `color_mesh.py` in exact arithmetic. The first takes a quaternion
as `x, y, z, w`, the second returns it as `w, x, y, z`. A division by zero or the root of a negative
number is an error.
-/
namespace RoveMapping.ColorMesh
set_option autoImplicit false

inductive Failure where
  | zeroDivision
  | mathDomain
deriving DecidableEq, Repr

abbrev Rotation (K : Type) := Matrix (Fin 3) (Fin 3) K

/-! The literals of the definitions below, here and in the modules that open them, carry these proofs. -/
namespace Literals

scoped instance neZero_three : NeZero 3 := ⟨three_ne_zero⟩
scoped instance neZero_four : NeZero 4 := ⟨four_ne_zero⟩
scoped instance atLeastTwo_two : Nat.AtLeastTwo 2 := ⟨le_rfl⟩
scoped instance atLeastTwo_four : Nat.AtLeastTwo 4 := ⟨by decide⟩
scoped instance atLeastTwo_ten : Nat.AtLeastTwo 10 := ⟨by decide⟩

end Literals
open scoped Literals

section Model

variable {K : Type} [Field K] [LinearOrder K]

def divide (x y : K) : Except Failure K := if y = 0 then .error .zeroDivision else .ok (x / y)

/-- `math.sqrt`, where `sqrt` is the root of the numbers that have one. -/
def mathSqrt (sqrt : K → K) (x : K) : Except Failure K := if x < 0 then .error .mathDomain else .ok (sqrt x)

/-- The matrix of `_quat_to_R` once the quaternion has been normalised. -/
def unitToR (qx qy qz qw : K) : Rotation K :=
  !![1 - 2 * (qy * qy + qz * qz), 2 * (qx * qy - qz * qw), 2 * (qx * qz + qy * qw);
    2 * (qx * qy + qz * qw), 1 - 2 * (qx * qx + qz * qz), 2 * (qy * qz - qx * qw);
    2 * (qx * qz - qy * qw), 2 * (qy * qz + qx * qw), 1 - 2 * (qx * qx + qy * qy)]

def quatToR (sqrt : K → K) (qx qy qz qw : K) : Except Failure (Rotation K) := do
  let n ← mathSqrt sqrt (qx * qx + qy * qy + qz * qz + qw * qw)
  let qx ← divide qx n
  let qy ← divide qy n
  let qz ← divide qz n
  let qw ← divide qw n
  return unitToR qx qy qz qw

/-- The component that a branch of `_R_to_quat` takes the root for. -/
inductive Branch where
  | w | x | y | z
deriving DecidableEq, Repr

/-- `np.argmax(np.diag(R))`: the first of the largest entries. -/
def argmaxDiag (R : Rotation K) : Fin 3 :=
  if R 1 1 ≤ R 0 0 ∧ R 2 2 ≤ R 0 0 then 0 else if R 2 2 ≤ R 1 1 then 1 else 2

def branch (R : Rotation K) : Branch :=
  if 0 < R.trace then .w
  else
    match argmaxDiag R with
    | 0 => .x
    | 1 => .y
    | 2 => .z

def radicand (R : Rotation K) : Branch → K
  | .w => R.trace + 1
  | .x => 1 + R 0 0 - R 1 1 - R 2 2
  | .y => 1 + R 1 1 - R 0 0 - R 2 2
  | .z => 1 + R 2 2 - R 0 0 - R 1 1

/-- The components of a branch, in the order `qw, qx, qy, qz`. -/
def components (R : Rotation K) (s : K) : Branch → Except Failure (Fin 4 → K)
  | .w => do
    let qx ← divide (R 2 1 - R 1 2) s
    let qy ← divide (R 0 2 - R 2 0) s
    let qz ← divide (R 1 0 - R 0 1) s
    return ![1 / 4 * s, qx, qy, qz]
  | .x => do
    let qw ← divide (R 2 1 - R 1 2) s
    let qy ← divide (R 0 1 + R 1 0) s
    let qz ← divide (R 0 2 + R 2 0) s
    return ![qw, 1 / 4 * s, qy, qz]
  | .y => do
    let qw ← divide (R 0 2 - R 2 0) s
    let qx ← divide (R 0 1 + R 1 0) s
    let qz ← divide (R 1 2 + R 2 1) s
    return ![qw, qx, 1 / 4 * s, qz]
  | .z => do
    let qw ← divide (R 1 0 - R 0 1) s
    let qx ← divide (R 0 2 + R 2 0) s
    let qy ← divide (R 1 2 + R 2 1) s
    return ![qw, qx, qy, 1 / 4 * s]

def rToQuat (sqrt : K → K) (R : Rotation K) : Except Failure (Fin 4 → K) := do
  let root ← mathSqrt sqrt (radicand R (branch R))
  components R (root * 2) (branch R)

theorem divide_eq {x y q : K} (hy : y ≠ 0) (hq : x = q * y) : divide x y = .ok q := by
  rw [divide, if_neg hy, hq, mul_div_cancel_right₀ _ hy]

theorem divide_ok {x y : K} (hy : y ≠ 0) : divide x y = .ok (x / y) := if_neg hy

theorem mathSqrt_ok (sqrt : K → K) {x : K} (hx : 0 ≤ x) : mathSqrt sqrt x = .ok (sqrt x) := if_neg (not_lt.mpr hx)

variable [IsStrictOrderedRing K]

/-- No branch takes the root of less than one: the largest of the four radicands is chosen. -/
theorem one_le_radicand (R : Rotation K) : 1 ≤ radicand R (branch R) := by
  unfold branch
  split
  · rename_i hTrace
    simp only [radicand]
    linarith
  · rename_i hTrace
    rw [Matrix.trace_fin_three] at hTrace
    have hSum : R 0 0 + R 1 1 + R 2 2 ≤ 0 := not_lt.mp hTrace
    unfold argmaxDiag
    by_cases hFirst : R 1 1 ≤ R 0 0 ∧ R 2 2 ≤ R 0 0
    · obtain ⟨h1, h2⟩ := hFirst
      simp only [h1, h2, and_self, if_true, radicand]
      linarith
    · rw [if_neg hFirst]
      by_cases hSecond : R 2 2 ≤ R 1 1
      · have hLess : R 0 0 ≤ R 1 1 := by
          by_contra hLess
          exact hFirst ⟨(not_le.mp hLess).le, hSecond.trans (not_le.mp hLess).le⟩
        simp only [hSecond, if_true, radicand]
        linarith
      · have hLess : R 0 0 ≤ R 2 2 := by
          by_contra hLess
          exact hFirst ⟨(not_le.mp hSecond).le.trans (not_le.mp hLess).le, (not_le.mp hLess).le⟩
        have hLast := not_le.mp hSecond
        simp only [hSecond, if_false, radicand]
        linarith

/-! ## Matrices of unit quaternions -/

section Unit

variable {qx qy qz qw : K}

theorem unitToR_mem (hUnit : qx * qx + qy * qy + qz * qz + qw * qw = 1) :
    unitToR qx qy qz qw ∈ Matrix.specialOrthogonalGroup (Fin 3) K := by
  rw [Matrix.mem_specialOrthogonalGroup_iff, Matrix.mem_orthogonalGroup_iff]
  constructor
  · ext i j
    fin_cases i <;> fin_cases j <;> simp [unitToR, Matrix.mul_apply, Fin.sum_univ_three]
    · linear_combination 4 * (qy * qy + qz * qz) * hUnit
    · linear_combination -4 * qx * qy * hUnit
    · linear_combination -4 * qx * qz * hUnit
    · linear_combination -4 * qx * qy * hUnit
    · linear_combination 4 * (qx * qx + qz * qz) * hUnit
    · linear_combination -4 * qy * qz * hUnit
    · linear_combination -4 * qx * qz * hUnit
    · linear_combination -4 * qy * qz * hUnit
    · linear_combination 4 * (qx * qx + qy * qy) * hUnit
  · rw [Matrix.det_fin_three]
    simp [unitToR]
    linear_combination 4 * (qx * qx + qy * qy + qz * qz) * hUnit

omit [LinearOrder K] [IsStrictOrderedRing K] in
theorem unitToR_neg (qx qy qz qw : K) : unitToR (-qx) (-qy) (-qz) (-qw) = unitToR qx qy qz qw := by
  simp [unitToR]

def component (q : Fin 4 → K) : Branch → K
  | .w => q 0
  | .x => q 1
  | .y => q 2
  | .z => q 3

theorem radicand_unitToR (hUnit : qx * qx + qy * qy + qz * qz + qw * qw = 1) (b : Branch) :
    radicand (unitToR qx qy qz qw) b = (2 * component ![qw, qx, qy, qz] b) ^ 2 := by
  cases b with
  | w =>
    simp [radicand, component, unitToR, Matrix.trace_fin_three]
    linear_combination -4 * hUnit
  | x =>
    simp [radicand, component, unitToR]
    ring
  | y =>
    simp [radicand, component, unitToR]
    ring
  | z =>
    simp [radicand, component, unitToR]
    ring

omit [LinearOrder K] [IsStrictOrderedRing K] in
theorem unitToR_twist (qx qy qz qw : K) : let R := unitToR qx qy qz qw
    R 2 1 - R 1 2 = 4 * (qw * qx) ∧ R 0 2 - R 2 0 = 4 * (qw * qy) ∧ R 1 0 - R 0 1 = 4 * (qw * qz) := by
  refine ⟨?_, ?_, ?_⟩ <;> simp [unitToR] <;> ring

omit [LinearOrder K] [IsStrictOrderedRing K] in
theorem unitToR_mirror (qx qy qz qw : K) : let R := unitToR qx qy qz qw
    R 0 1 + R 1 0 = 4 * (qx * qy) ∧ R 0 2 + R 2 0 = 4 * (qx * qz) ∧ R 1 2 + R 2 1 = 4 * (qy * qz) := by
  refine ⟨?_, ?_, ?_⟩ <;> simp [unitToR] <;> ring

/-- A branch recovers the quaternion from four times its own component. -/
theorem components_unitToR {b : Branch} (hComponent : component ![qw, qx, qy, qz] b ≠ 0) :
    components (unitToR qx qy qz qw) (4 * component ![qw, qx, qy, qz] b) b = .ok ![qw, qx, qy, qz] := by
  have hDivisor : 4 * component ![qw, qx, qy, qz] b ≠ 0 := mul_ne_zero four_ne_zero hComponent
  have hQuarter : 1 / 4 * (4 * component ![qw, qx, qy, qz] b) = component ![qw, qx, qy, qz] b := by ring
  obtain ⟨hWX, hWY, hWZ⟩ := unitToR_twist qx qy qz qw
  obtain ⟨hXY, hXZ, hYZ⟩ := unitToR_mirror qx qy qz qw
  -- each numerator is the divisor times the component that is sought
  cases b with
  | w =>
    have hX := divide_eq hDivisor (hWX.trans (by ring : _ = qx * (4 * qw)))
    have hY := divide_eq hDivisor (hWY.trans (by ring : _ = qy * (4 * qw)))
    have hZ := divide_eq hDivisor (hWZ.trans (by ring : _ = qz * (4 * qw)))
    simp only [components, hX, hY, hZ, hQuarter]
    rfl
  | x =>
    have hW := divide_eq hDivisor (hWX.trans (by ring : _ = qw * (4 * qx)))
    have hY := divide_eq hDivisor (hXY.trans (by ring : _ = qy * (4 * qx)))
    have hZ := divide_eq hDivisor (hXZ.trans (by ring : _ = qz * (4 * qx)))
    simp only [components, hW, hY, hZ, hQuarter]
    rfl
  | y =>
    have hW := divide_eq hDivisor (hWY.trans (by ring : _ = qw * (4 * qy)))
    have hX := divide_eq hDivisor (hXY.trans (by ring : _ = qx * (4 * qy)))
    have hZ := divide_eq hDivisor (hYZ.trans (by ring : _ = qz * (4 * qy)))
    simp only [components, hW, hX, hZ, hQuarter]
    rfl
  | z =>
    have hW := divide_eq hDivisor (hWZ.trans (by ring : _ = qw * (4 * qz)))
    have hX := divide_eq hDivisor (hXZ.trans (by ring : _ = qx * (4 * qz)))
    have hY := divide_eq hDivisor (hYZ.trans (by ring : _ = qy * (4 * qz)))
    simp only [components, hW, hX, hY, hQuarter]
    rfl

end Unit

end Model

/-! ## The round trip -/

noncomputable section

open Real

/-- The quaternion of length one in the direction of `q`, with its components in the same order. -/
def normalised (q : Fin 4 → ℝ) : Fin 4 → ℝ := fun k => q k / √(q 1 * q 1 + q 2 * q 2 + q 3 * q 3 + q 0 * q 0)

/-- What the two functions owe for a quaternion, given as `w, x, y, z`. -/
structure RoundTrip (q : Fin 4 → ℝ) (R : Rotation ℝ) : Prop where
  matrix : quatToR sqrt (q 1) (q 2) (q 3) (q 0) = .ok R
  rotation : R ∈ Matrix.specialOrthogonalGroup (Fin 3) ℝ
  root : 0 < radicand R (branch R)
  divisor : √(radicand R (branch R)) * 2 ≠ 0
  back : ∃ q', rToQuat sqrt R = .ok q' ∧ (q' = normalised q ∨ q' = -normalised q) ∧
    quatToR sqrt (q' 1) (q' 2) (q' 3) (q' 0) = .ok R

theorem quatToR_of_ne_zero {qx qy qz qw : ℝ} (h : 0 < qx * qx + qy * qy + qz * qz + qw * qw) :
    let n := √(qx * qx + qy * qy + qz * qz + qw * qw)
    quatToR sqrt qx qy qz qw = .ok (unitToR (qx / n) (qy / n) (qz / n) (qw / n)) := by
  intro n
  have hn : n ≠ 0 := (sqrt_pos.mpr h).ne'
  simp only [quatToR, mathSqrt_ok sqrt h.le]
  change (do
    let qx ← divide qx n
    let qy ← divide qy n
    let qz ← divide qz n
    let qw ← divide qw n
    return unitToR qx qy qz qw : Except Failure (Rotation ℝ)) = _
  rw [divide_ok hn, divide_ok hn, divide_ok hn, divide_ok hn]
  rfl

theorem quatToR_of_unit {qx qy qz qw : ℝ} (hUnit : qx * qx + qy * qy + qz * qz + qw * qw = 1) :
    quatToR sqrt qx qy qz qw = .ok (unitToR qx qy qz qw) := by
  have h := quatToR_of_ne_zero (hUnit ▸ one_pos : 0 < qx * qx + qy * qy + qz * qz + qw * qw)
  simpa [hUnit] using h

theorem component_neg (qx qy qz qw : ℝ) (b : Branch) :
    component ![-qw, -qx, -qy, -qz] b = -component ![qw, qx, qy, qz] b := by
  cases b <;> rfl

/-- The branch that is taken recovers a unit quaternion, or its opposite. -/
theorem rToQuat_unitToR {qx qy qz qw : ℝ} (hUnit : qx * qx + qy * qy + qz * qz + qw * qw = 1) :
    rToQuat sqrt (unitToR qx qy qz qw) = .ok ![qw, qx, qy, qz] ∨
      rToQuat sqrt (unitToR qx qy qz qw) = .ok ![-qw, -qx, -qy, -qz] := by
  have hLarge := one_le_radicand (unitToR qx qy qz qw)
  have hSquare := radicand_unitToR hUnit (branch (unitToR qx qy qz qw))
  have hRoot := mathSqrt_ok sqrt (zero_le_one.trans hLarge)
  rw [hSquare] at hLarge
  rw [rToQuat, hRoot, hSquare, sqrt_sq_eq_abs, abs_mul, abs_two]
  generalize branch (unitToR qx qy qz qw) = b at hLarge ⊢
  have hComponent : component ![qw, qx, qy, qz] b ≠ 0 := by
    intro hZero
    rw [hZero] at hLarge
    norm_num at hLarge
  rcases abs_choice (component ![qw, qx, qy, qz] b) with hAbs | hAbs
  · left
    rw [hAbs, ← components_unitToR hComponent]
    change components _ _ b = components _ _ b
    congr 1
    ring
  · right
    rw [hAbs, ← component_neg, ← components_unitToR (by rwa [component_neg, neg_ne_zero]), unitToR_neg]
    change components _ _ b = components _ _ b
    congr 1
    ring

theorem sum_squares_pos {q : Fin 4 → ℝ} (hq : q ≠ 0) : 0 < q 1 * q 1 + q 2 * q 2 + q 3 * q 3 + q 0 * q 0 := by
  obtain ⟨k, hk⟩ := Function.ne_iff.mp hq
  have hSquare : 0 < q k * q k := mul_self_pos.mpr hk
  have hSum : q k * q k ≤ ∑ i, q i * q i :=
    Finset.single_le_sum (f := fun i => q i * q i) (fun i _ => mul_self_nonneg (q i)) (Finset.mem_univ k)
  rw [Fin.sum_univ_four] at hSum
  linarith

theorem unit_normalised {q : Fin 4 → ℝ} (hq : q ≠ 0) : let u := normalised q
    u 1 * u 1 + u 2 * u 2 + u 3 * u 3 + u 0 * u 0 = 1 := by
  have hPos := sum_squares_pos hq
  have hSqrt := mul_self_sqrt hPos.le
  intro u
  have hDivided : u 1 * u 1 + u 2 * u 2 + u 3 * u 3 + u 0 * u 0 =
      (q 1 * q 1 + q 2 * q 2 + q 3 * q 3 + q 0 * q 0) /
        (√(q 1 * q 1 + q 2 * q 2 + q 3 * q 3 + q 0 * q 0) * √(q 1 * q 1 + q 2 * q 2 + q 3 * q 3 + q 0 * q 0)) := by
    simp only [u, normalised, div_mul_div_comm]
    ring
  rw [hDivided, hSqrt, div_self hPos.ne']

theorem quat_round_trip (q : Fin 4 → ℝ) (hq : q ≠ 0) : ∃ R, RoundTrip q R := by
  have hUnit := unit_normalised hq
  have hLarge := one_le_radicand (unitToR (normalised q 1) (normalised q 2) (normalised q 3) (normalised q 0))
  have hOrder : normalised q = ![normalised q 0, normalised q 1, normalised q 2, normalised q 3] := by
    ext k
    fin_cases k <;> rfl
  refine ⟨unitToR (normalised q 1) (normalised q 2) (normalised q 3) (normalised q 0), ?_⟩
  constructor
  · exact quatToR_of_ne_zero (sum_squares_pos hq)
  · exact unitToR_mem hUnit
  · exact one_pos.trans_le hLarge
  · exact mul_ne_zero (sqrt_pos.mpr (one_pos.trans_le hLarge)).ne' two_ne_zero
  · rcases rToQuat_unitToR hUnit with hBack | hBack
    · refine ⟨_, hBack, .inl hOrder.symm, ?_⟩
      exact quatToR_of_unit hUnit
    · refine ⟨_, hBack, .inr ?_, ?_⟩
      · rw [hOrder]
        ext k
        fin_cases k <;> rfl
      · rw [← unitToR_neg]
        exact quatToR_of_unit (by simpa using hUnit)

/-- A half turn: the branch of the trace is not taken. -/
theorem quat_round_trip_half_turn : ∃ R, RoundTrip ![0, 1, 2, 2] R :=
  quat_round_trip ![0, 1, 2, 2] fun h => one_ne_zero (congrFun h 1)

end

end RoveMapping.ColorMesh
