import Mathlib.Analysis.SpecialFunctions.Trigonometric.Basic
import Mathlib.Algebra.Order.Round
import RoveMapping.Library.Resampling

/-! # The rotation of the minimap

`_on_map` flips the crop around the robot upside down and rotates it by the yaw of the robot plus a
quarter turn. Points are pairs of row and column; rows of the crop grow with `y`, columns with `x`.
-/
namespace RoveMapping.MappingApi
open Resampling
set_option autoImplicit false

def localSize : ℕ := 200

section Sources

variable {K : Type} [Field K]

/-- The matrix that `ndimage.rotate` multiplies displacements of the output by. -/
def rotation (cosA sinA : K) : K × K →+ K × K where
  toFun v := (cosA * v.1 + sinA * v.2, -sinA * v.1 + cosA * v.2)
  map_zero' := by simp
  map_add' v w := by
    ext
    · simp only [Prod.fst_add, Prod.snd_add]
      ring
    · simp only [Prod.fst_add, Prod.snd_add]
      ring

def centre (n : ℕ) : K × K := (((n : K) - 1) / (2 : ℕ), ((n : K) - 1) / (2 : ℕ))

def rotateSource (n : ℕ) (cosA sinA : K) (o : K × K) : K × K := rotation cosA sinA (o - centre n) + centre n

def flipSource (n : ℕ) (p : K × K) : K × K := ((n : K) - 1 - p.1, p.2)

def minimapSource (cosA sinA : K) (o : K × K) : K × K := flipSource localSize (rotateSource localSize cosA sinA o)

theorem carries_rotate (n : ℕ) (cosA sinA : K) (v : K × K) :
    Carries (rotateSource n cosA sinA) v (rotation cosA sinA v) := carries_about _ _ _

theorem carries_flip (n : ℕ) (v : K × K) : Carries (flipSource n) v (-v.1, v.2) := by
  intro p
  ext
  · simp only [flipSource, Prod.fst_add]
    ring
  · rfl

theorem carries_minimap (cosA sinA : K) (v : K × K) :
    Carries (minimapSource cosA sinA) v (-(cosA * v.1 + sinA * v.2), -sinA * v.1 + cosA * v.2) :=
  (carries_rotate localSize cosA sinA v).comp (carries_flip localSize _)

end Sources

section Arrays

variable {K : Type} [Field K] [LinearOrder K] [FloorRing K]

def flipud (n : ℕ) (image : ℤ → ℤ → ℤ) : ℤ → ℤ → ℤ := fun i j => image (n - 1 - i) j

/-- `order=0, cval=-1`: the nearest cell, and −1 outside the array. -/
def sample (n : ℕ) (image : ℤ → ℤ → ℤ) (p : K × K) : ℤ :=
  if (0 ≤ p.1 ∧ p.1 ≤ n - 1) ∧ 0 ≤ p.2 ∧ p.2 ≤ n - 1 then image (round p.1) (round p.2) else -1

/-- `ndimage.rotate` with `reshape=False`, the angle given by its cosine and sine. -/
def ndimageRotate (n : ℕ) (cosA sinA : K) (image : ℤ → ℤ → ℤ) : ℤ → ℤ → ℤ :=
  fun i j => sample n image (rotateSource n cosA sinA (i, j))

/-- What `_on_map` publishes as `data`. -/
def minimap (cosA sinA : K) (crop : ℤ → ℤ → ℤ) : ℤ → ℤ → ℤ := ndimageRotate localSize cosA sinA (flipud localSize crop)

theorem minimap_eq [IsStrictOrderedRing K] {cosA sinA : K} {crop : ℤ → ℤ → ℤ} {i j k l : ℤ}
    (hSource : minimapSource cosA sinA ((i : K), (j : K)) = ((k : K), (l : K))) (hk : 0 ≤ k ∧ k < localSize)
    (hl : 0 ≤ l ∧ l < localSize) : minimap cosA sinA crop i j = crop k l := by
  have hRow : (rotateSource localSize cosA sinA ((i : K), (j : K))).1 = ((localSize - 1 - k : ℤ) : K) := by
    have h := congrArg Prod.fst hSource
    simp only [minimapSource, flipSource] at h
    push_cast
    linarith
  have hColumn : (rotateSource localSize cosA sinA ((i : K), (j : K))).2 = (l : K) := congrArg Prod.snd hSource
  have hUpper : ∀ m : ℤ, m < localSize → (m : K) ≤ (localSize : K) - 1 := by
    intro m hm
    have h : (m : K) ≤ ((localSize - 1 : ℤ) : K) := Int.cast_le.mpr (by omega)
    simpa using h
  have hInside : (0 ≤ ((localSize - 1 - k : ℤ) : K) ∧ ((localSize - 1 - k : ℤ) : K) ≤ (localSize : K) - 1) ∧
      0 ≤ (l : K) ∧ (l : K) ≤ (localSize : K) - 1 :=
    ⟨⟨Int.cast_nonneg (by omega), hUpper _ (by omega)⟩, Int.cast_nonneg hl.1, hUpper _ hl.2⟩
  rw [minimap, ndimageRotate, sample, hRow, hColumn, if_pos hInside, round_intCast, round_intCast, flipud]
  congr 1
  omega

end Arrays

noncomputable section

open Real

def cosdg (angle : ℝ) : ℝ := cos (angle * π / 180)
def sindg (angle : ℝ) : ℝ := sin (angle * π / 180)

def degrees (radians : ℝ) : ℝ := radians * 180 / π

def mapAngle (yaw : ℝ) : ℝ := degrees yaw + 90

/-- The robot's forward direction in the crop: rows grow with `y`, columns with `x`. -/
def forward (yaw : ℝ) : ℝ × ℝ := (sin yaw, cos yaw)

/-- Going straight up in the published array is going forward in the crop. -/
def HeadingUp (yaw : ℝ) : Prop :=
  ∃ k > 0, Carries (minimapSource (cosdg (mapAngle yaw)) (sindg (mapAngle yaw))) (-k, 0) (forward yaw)

/-- The minimap is heading-up for every yaw. -/
def AlwaysHeadingUp : Prop := ∀ yaw, HeadingUp yaw

theorem mapAngle_radians (yaw : ℝ) : mapAngle yaw * π / 180 = yaw + π / 2 := by
  have hPi : π ≠ 0 := pi_ne_zero
  rw [mapAngle, degrees]
  field_simp
  ring

theorem cosdg_mapAngle (yaw : ℝ) : cosdg (mapAngle yaw) = -sin yaw := by
  rw [cosdg, mapAngle_radians, cos_add_pi_div_two]

theorem sindg_mapAngle (yaw : ℝ) : sindg (mapAngle yaw) = cos yaw := by
  rw [sindg, mapAngle_radians, sin_add_pi_div_two]

theorem carries_up (yaw k : ℝ) :
    Carries (minimapSource (cosdg (mapAngle yaw)) (sindg (mapAngle yaw))) (-k, 0) (-(k * sin yaw), k * cos yaw) := by
  have h := carries_minimap (cosdg (mapAngle yaw)) (sindg (mapAngle yaw)) (-k, 0)
  rw [cosdg_mapAngle, sindg_mapAngle] at h ⊢
  convert h using 2 <;> ring

/-- The flip turns the row of the forward direction around, the rotation does not: only a robot that
looks along the x axis of the map faces up. -/
theorem headingUp_iff (yaw : ℝ) : HeadingUp yaw ↔ sin yaw = 0 := by
  constructor
  · rintro ⟨k, hk, hCarries⟩
    have hEq := (carries_up yaw k).unique hCarries
    have hRow : -(k * sin yaw) = sin yaw := congrArg Prod.fst hEq
    have hZero : (k + 1) * sin yaw = 0 := by linarith
    exact (mul_eq_zero.mp hZero).resolve_left (by positivity)
  · intro hSin
    refine ⟨1, one_pos, ?_⟩
    have h := carries_up yaw 1
    rw [hSin] at h
    rw [forward, hSin]
    simpa using h

theorem alwaysHeadingUp_quarter_turn : ¬ AlwaysHeadingUp := by
  intro hUp
  obtain ⟨k, hk, hCarries⟩ := hUp (π / 2)
  have hEq := (carries_up (π / 2) k).unique hCarries
  have hRow : -(k * sin (π / 2)) = sin (π / 2) := congrArg Prod.fst hEq
  rw [sin_pi_div_two] at hRow
  linarith

end

end RoveMapping.MappingApi
