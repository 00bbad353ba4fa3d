import Mathlib.Algebra.Quaternion
import Mathlib.LinearAlgebra.Matrix.Notation
import Mathlib.Tactic.FinCases
import Mathlib.Tactic.LinearCombination

/-! # The matrix by which a quaternion turns space

The matrix of `v ↦ q * v * star q`, for a quaternion of any length.
-/
namespace QuaternionMatrix
set_option autoImplicit false

variable {K : Type} [CommRing K]

def toMatrix (q : Quaternion K) : Matrix (Fin 3) (Fin 3) K :=
  !![q.re * q.re + q.imI * q.imI - q.imJ * q.imJ - q.imK * q.imK, 2 • (q.imI * q.imJ - q.imK * q.re),
      2 • (q.imI * q.imK + q.imJ * q.re);
    2 • (q.imI * q.imJ + q.imK * q.re), q.re * q.re - q.imI * q.imI + q.imJ * q.imJ - q.imK * q.imK,
      2 • (q.imJ * q.imK - q.imI * q.re);
    2 • (q.imI * q.imK - q.imJ * q.re), 2 • (q.imJ * q.imK + q.imI * q.re),
      q.re * q.re - q.imI * q.imI - q.imJ * q.imJ + q.imK * q.imK]

theorem toMatrix_mul (p q : Quaternion K) : toMatrix (p * q) = toMatrix p * toMatrix q := by
  ext i j
  fin_cases i <;> fin_cases j <;> simp [toMatrix, Matrix.mul_apply, Fin.sum_univ_three] <;> ring

/-- The square of the length. -/
theorem normSq_eq (q : Quaternion K) :
    Quaternion.normSq q = q.imI * q.imI + q.imJ * q.imJ + q.imK * q.imK + q.re * q.re := by
  rw [Quaternion.normSq_def']
  ring

section Axes

/-- Turns about the three axes, by twice the angle whose cosine is `c` and whose sine is `s`. -/
def aboutX (c s : K) : Quaternion K := ⟨c, s, 0, 0⟩
def aboutY (c s : K) : Quaternion K := ⟨c, 0, s, 0⟩
def aboutZ (c s : K) : Quaternion K := ⟨c, 0, 0, s⟩

variable {c s C S : K} (hUnit : s ^ 2 + c ^ 2 = 1) (hCos : C = 2 * c ^ 2 - 1) (hSin : S = 2 * s * c)

include hUnit hCos hSin

theorem toMatrix_aboutX : toMatrix (aboutX c s) = !![1, 0, 0; 0, C, -S; 0, S, C] := by
  ext i j
  fin_cases i <;> fin_cases j <;> simp [toMatrix, aboutX, hCos, hSin]
  · linear_combination hUnit
  · linear_combination -hUnit
  · ring
  · ring
  · linear_combination -hUnit

theorem toMatrix_aboutY : toMatrix (aboutY c s) = !![C, 0, S; 0, 1, 0; -S, 0, C] := by
  ext i j
  fin_cases i <;> fin_cases j <;> simp [toMatrix, aboutY, hCos, hSin]
  · linear_combination -hUnit
  · ring
  · linear_combination hUnit
  · ring
  · linear_combination -hUnit

theorem toMatrix_aboutZ : toMatrix (aboutZ c s) = !![C, -S, 0; S, C, 0; 0, 0, 1] := by
  ext i j
  fin_cases i <;> fin_cases j <;> simp [toMatrix, aboutZ, hCos, hSin]
  · linear_combination -hUnit
  · ring
  · ring
  · linear_combination -hUnit
  · linear_combination hUnit

omit hCos hSin

theorem normSq_aboutX : Quaternion.normSq (aboutX c s) = 1 := by
  rw [normSq_eq]
  simp only [aboutX]
  linear_combination hUnit

theorem normSq_aboutY : Quaternion.normSq (aboutY c s) = 1 := by
  rw [normSq_eq]
  simp only [aboutY]
  linear_combination hUnit

theorem normSq_aboutZ : Quaternion.normSq (aboutZ c s) = 1 := by
  rw [normSq_eq]
  simp only [aboutZ]
  linear_combination hUnit

end Axes

end QuaternionMatrix
