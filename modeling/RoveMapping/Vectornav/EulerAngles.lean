import Mathlib.Analysis.SpecialFunctions.Trigonometric.Basic
import RoveMapping.ColorMesh.Kinematics
import RoveMapping.Library.QuaternionMatrix

/-! # Euler angles of the VectorNav sensor

`euler_to_quaternion` of `vectornav_udp_node.py`, which must follow the convention of `_rpy_to_R`.
-/
namespace RoveMapping.Vectornav
open ColorMesh QuaternionMatrix
open scoped Literals
set_option autoImplicit false

section Model

variable {K : Type} [Field K]

/-- The quaternion as `(x, y, z, w)`. -/
def eulerToQuaternion (cos sin radians : K → K) (rollDeg pitchDeg yawDeg : K) : K × K × K × K :=
  let r := radians rollDeg / 2
  let p := radians pitchDeg / 2
  let y := radians yawDeg / 2
  let cr := cos r
  let sr := sin r
  let cp := cos p
  let sp := sin p
  let cy := cos y
  let sy := sin y
  (sr * cp * cy - cr * sp * sy, cr * sp * cy + sr * cp * sy, cr * cp * sy - sr * sp * cy, cr * cp * cy + sr * sp * sy)

/-- A quaternion of Mathlib from the order of the source. -/
def ofTuple (q : K × K × K × K) : Quaternion K := ⟨q.2.2.2, q.1, q.2.1, q.2.2.1⟩

theorem eulerToQuaternion_eq (cos sin radians : K → K) (rollDeg pitchDeg yawDeg : K) :
    ofTuple (eulerToQuaternion cos sin radians rollDeg pitchDeg yawDeg) =
      aboutZ (cos (radians yawDeg / 2)) (sin (radians yawDeg / 2)) *
        aboutY (cos (radians pitchDeg / 2)) (sin (radians pitchDeg / 2)) *
        aboutX (cos (radians rollDeg / 2)) (sin (radians rollDeg / 2)) := by
  ext <;> simp only [Quaternion.re_mul, Quaternion.imI_mul, Quaternion.imJ_mul, Quaternion.imK_mul] <;>
    simp [ofTuple, eulerToQuaternion, aboutX, aboutY, aboutZ] <;> ring

theorem unitToR_eq_toMatrix {x y z w : K} (hUnit : x * x + y * y + z * z + w * w = 1) :
    unitToR x y z w = toMatrix (ofTuple (x, y, z, w)) := by
  ext i j
  fin_cases i <;> fin_cases j <;> simp [unitToR, toMatrix, mul_add, ofTuple] <;> linear_combination -hUnit

end Model

noncomputable section

open Real

/-- `math.radians` -/
def radians (degrees : ℝ) : ℝ := degrees * (π / (180 : ℕ))

theorem cos_eq_half (x : ℝ) : cos x = 2 * cos (x / 2) ^ 2 - 1 := by
  rw [← cos_two_mul, mul_div_cancel₀ x two_ne_zero]

theorem sin_eq_half (x : ℝ) : sin x = 2 * sin (x / 2) * cos (x / 2) := by
  rw [← sin_two_mul, mul_div_cancel₀ x two_ne_zero]

section Turns

variable (rollDeg pitchDeg yawDeg : ℝ)

theorem toMatrix_eulerToQuaternion :
    toMatrix (ofTuple (eulerToQuaternion cos sin radians rollDeg pitchDeg yawDeg)) =
      rpyToR cos sin (radians rollDeg) (radians pitchDeg) (radians yawDeg) := by
  rw [eulerToQuaternion_eq, toMatrix_mul, toMatrix_mul]
  rw [toMatrix_aboutX (sin_sq_add_cos_sq _) (cos_eq_half _) (sin_eq_half _),
    toMatrix_aboutY (sin_sq_add_cos_sq _) (cos_eq_half _) (sin_eq_half _),
    toMatrix_aboutZ (sin_sq_add_cos_sq _) (cos_eq_half _) (sin_eq_half _)]
  rfl

theorem normSq_eulerToQuaternion :
    Quaternion.normSq (ofTuple (eulerToQuaternion cos sin radians rollDeg pitchDeg yawDeg)) = 1 := by
  rw [eulerToQuaternion_eq, map_mul, map_mul, normSq_aboutX (sin_sq_add_cos_sq _), normSq_aboutY (sin_sq_add_cos_sq _),
    normSq_aboutZ (sin_sq_add_cos_sq _)]
  norm_num

theorem euler_conventions_agree : ∃ x y z w, eulerToQuaternion cos sin radians rollDeg pitchDeg yawDeg = (x, y, z, w) ∧
    x * x + y * y + z * z + w * w = 1 ∧
    quatToR sqrt x y z w = .ok (rpyToR cos sin (radians rollDeg) (radians pitchDeg) (radians yawDeg)) := by
  have hNorm := normSq_eulerToQuaternion rollDeg pitchDeg yawDeg
  have hMatrix := toMatrix_eulerToQuaternion rollDeg pitchDeg yawDeg
  obtain ⟨x, y, z, w, hTuple⟩ : ∃ x y z w, eulerToQuaternion cos sin radians rollDeg pitchDeg yawDeg = (x, y, z, w) :=
    ⟨_, _, _, _, rfl⟩
  rw [hTuple] at hNorm hMatrix
  have hUnit : x * x + y * y + z * z + w * w = 1 := (normSq_eq (ofTuple (x, y, z, w))).symm.trans hNorm
  refine ⟨x, y, z, w, hTuple, hUnit, ?_⟩
  rw [quatToR_of_unit hUnit, unitToR_eq_toMatrix hUnit, hMatrix]

end Turns

end

end RoveMapping.Vectornav
