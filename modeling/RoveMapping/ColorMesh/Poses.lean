import RoveMapping.ColorMesh.Coloring
import RoveMapping.ColorMesh.Rotations
import RoveMapping.Library.Bisection
import RoveMapping.Library.Fallible
import RoveMapping.Library.NearestEven
import RoveMapping.Library.PythonText

/-! # The trajectory and the pose at a time

`load_tum` and `interp_pose`. Numbers are exact; what `float` reads is a parameter, and so is the root.
The weight between two samples is also looked at as the double that Python computes.
-/
namespace RoveMapping.ColorMesh
open Blend Bisection Fallible
open scoped Literals
set_option autoImplicit false

/-- Samples of `T_map_base` with their times in nanoseconds. -/
abbrev Trajectory (K : Type) := List (ℤ × Transform K)

section Model

variable {K : Type} [Field K] [LinearOrder K]

/-- `T[:3, :3]` -/
def rotationOf (T : Transform K) : Rotation K := fun i j => T i.castSucc j.castSucc

/-- `T[:3, 3]` -/
def translationOf (T : Transform K) : Fin 3 → K := fun i => T i.castSucc 3

/-- `np.eye(4)` with a rotation and a translation written into it. -/
def transformOf (R : Rotation K) (p : Fin 3 → K) : Transform K := fun i j =>
  if hi : i.val < 3 then if hj : j.val < 3 then R ⟨i, hi⟩ ⟨j, hj⟩ else p ⟨i, hi⟩
  else if j = 3 then 1 else 0

omit [LinearOrder K] in
@[simp] theorem translationOf_transformOf (R : Rotation K) (p : Fin 3 → K) : translationOf (transformOf R p) = p := by
  ext i
  simp [translationOf, transformOf]

/-! ## Loading -/

section Load

variable [FloorRing K] (float : List Char → Option K) (sqrt : K → K)

inductive LoadError where
  | valueError
  | arithmetic (failure : Failure)
deriving DecidableEq, Repr

def readFloat (text : List Char) : Except LoadError K :=
  match float text with
  | some x => .ok x
  | none => .error .valueError

/-- `int(t_s * 1e9)` -/
def nanoseconds (seconds : K) : ℤ :=
  let x := seconds * 10 ^ 9
  if 0 ≤ x then ⌊x⌋ else ⌈x⌉

/-- One line of the file; blank lines, comments and short lines are passed over. -/
def tumLine (line : List Char) : Except LoadError (Option (ℤ × Transform K)) := do
  let line := PythonText.strip line
  if line = [] ∨ line.head? = some '#' then return none
  else
    match PythonText.split line with
    | tS :: x :: y :: z :: qx :: qy :: qz :: qw :: _ =>
      let tS ← readFloat float tS
      let x ← readFloat float x
      let y ← readFloat float y
      let z ← readFloat float z
      let qx ← readFloat float qx
      let qy ← readFloat float qy
      let qz ← readFloat float qz
      let qw ← readFloat float qw
      match quatToR sqrt qx qy qz qw with
      | .error failure => .error (.arithmetic failure)
      | .ok R => return some (nanoseconds tS, transformOf R ![x, y, z])
    | _ => return none

def loadTum (text : List Char) : Except LoadError (Trajectory K) := do
  let poses ← (PythonText.splitlines (PythonText.universalNewlines text)).mapM (tumLine float sqrt)
  return (poses.filterMap id).mergeSort fun a b => a.1 ≤ b.1

theorem loadTum_sorted {text : List Char} {traj : Trajectory K} (h : loadTum float sqrt text = .ok traj) :
    traj.Pairwise fun a b => a.1 ≤ b.1 := by
  obtain ⟨poses, -, hTraj⟩ := bind_ok h
  cases hTraj
  have hTrans : ∀ a b c : ℤ × Transform K, decide (a.1 ≤ b.1) → decide (b.1 ≤ c.1) → decide (a.1 ≤ c.1) := by
    intro a b c hab hbc
    simpa using (of_decide_eq_true hab).trans (of_decide_eq_true hbc)
  have hTotal : ∀ a b : ℤ × Transform K, decide (a.1 ≤ b.1) || decide (b.1 ≤ a.1) := by
    intro a b
    simpa using le_total a.1 b.1
  simpa using List.pairwise_mergeSort hTrans hTotal (poses.filterMap id)

end Load

/-! ## Interpolating -/

/-- `int(0.5e9)` -/
def halfSecondNs : ℤ := 500000000

def dot (p q : Fin 4 → K) : K := p 0 * q 0 + p 1 * q 1 + p 2 * q 2 + p 3 * q 3

/-- Two quaternions on the shorter way between them. -/
def aligned (q0 q1 : Fin 4 → K) : Fin 4 → K := if dot q0 q1 < 0 then -q1 else q1

/-- The blended quaternion, before it is normalised. -/
def blend (a : K) (q0 q1 : Fin 4 → K) : Fin 4 → K := fun k => lerp a (q0 k) (aligned q0 q1 k)

def blendPoses (sqrt : K → K) (a : K) (T0 T1 : Transform K) : Except Failure (Transform K) := do
  let q0 ← rToQuat sqrt (rotationOf T0)
  let q1 ← rToQuat sqrt (rotationOf T1)
  let q := blend a q0 q1
  let n ← mathSqrt sqrt (dot q q)
  let qw ← divide (q 0) n
  let qx ← divide (q 1) n
  let qy ← divide (q 2) n
  let qz ← divide (q 3) n
  let R ← quatToR sqrt qx qy qz qw
  return transformOf R fun i => lerp a (translationOf T0 i) (translationOf T1 i)

def searchPose (traj : Trajectory K) (tNs : ℤ) (h : 0 < traj.length) : Fin traj.length × Fin traj.length :=
  bracket (fun i => decide ((traj.get i).1 ≤ tNs)) ⟨0, h⟩ ⟨traj.length - 1, by omega⟩

def between (sqrt : K → K) (tNs : ℤ) (sample0 sample1 : ℤ × Transform K) : Except Failure (Transform K) :=
  if sample1.1 = sample0.1 then .ok sample0.2
  else do
    let a ← divide ((tNs - sample0.1 : ℤ) : K) ((sample1.1 - sample0.1 : ℤ) : K)
    blendPoses sqrt a sample0.2 sample1.2

def interpPose (sqrt : K → K) (traj : Trajectory K) (tNs : ℤ) : Except Failure (Option (Transform K)) :=
  if h : 0 < traj.length then
    let first := traj.get ⟨0, h⟩
    let last := traj.get ⟨traj.length - 1, by omega⟩
    if tNs ≤ first.1 then .ok (if |tNs - first.1| < halfSecondNs then some first.2 else none)
    else if last.1 ≤ tNs then .ok (if |tNs - last.1| < halfSecondNs then some last.2 else none)
    else
      let (lo, hi) := searchPose traj tNs h
      some <$> between sqrt tNs (traj.get lo) (traj.get hi)
  else .ok none

section Search

variable {traj : Trajectory K} {tNs : ℤ} {h : 0 < traj.length}

omit [Field K] [LinearOrder K] in
theorem searchPose_spec (hFirst : (traj.get ⟨0, h⟩).1 < tNs) (hLast : tNs < (traj.get ⟨traj.length - 1, by omega⟩).1) :
    (searchPose traj tNs h).2.val = (searchPose traj tNs h).1.val + 1 ∧
      (traj.get (searchPose traj tNs h).1).1 ≤ tNs ∧ tNs < (traj.get (searchPose traj tNs h).2).1 := by
  have hWindow : Window (fun i => decide ((traj.get i).1 ≤ tNs)) ⟨0, h⟩ ⟨traj.length - 1, by omega⟩ := by
    constructor
    · rw [Fin.val_mk, Fin.val_mk]
      by_contra hSingle
      have hSame : (⟨traj.length - 1, by omega⟩ : Fin traj.length) = ⟨0, h⟩ := Fin.ext (by dsimp only; omega)
      rw [hSame] at hLast
      omega
    · exact decide_eq_true hFirst.le
    · exact decide_eq_false (not_le.mpr hLast)
  obtain ⟨hFound, hNext⟩ := bracket_window hWindow
  have hAbove := of_decide_eq_false hFound.above
  exact ⟨hNext, of_decide_eq_true hFound.below, not_le.mp hAbove⟩

end Search

end Model

/-! ## No division by zero -/

noncomputable section

open Real

theorem components_ok (R : Rotation ℝ) {s : ℝ} (hs : s ≠ 0) (b : Branch) :
    ∃ q, components R s b = .ok q ∧ component q b = 1 / 4 * s := by
  cases b <;> exact ⟨_, by simp only [components, divide_ok hs]; rfl, rfl⟩

theorem rToQuat_ok (R : Rotation ℝ) : ∃ q, rToQuat sqrt R = .ok q ∧ q ≠ 0 := by
  have hLarge := one_le_radicand R
  have hRoot : √(radicand R (branch R)) * 2 ≠ 0 :=
    mul_ne_zero (sqrt_pos.mpr (one_pos.trans_le hLarge)).ne' two_ne_zero
  obtain ⟨q, hq, hComponent⟩ := components_ok R hRoot (branch R)
  refine ⟨q, ?_, ?_⟩
  · rw [rToQuat, mathSqrt_ok sqrt (zero_le_one.trans hLarge)]
    exact hq
  · rintro rfl
    have hZero : component (0 : Fin 4 → ℝ) (branch R) = 0 := by cases branch R <;> rfl
    rw [hZero] at hComponent
    exact mul_ne_zero (by norm_num) hRoot hComponent.symm

theorem dot_aligned (q0 q1 : Fin 4 → ℝ) : 0 ≤ dot q0 (aligned q0 q1) := by
  unfold aligned
  split
  · rename_i hNegative
    have hOpposite : dot q0 (-q1) = -dot q0 q1 := by
      simp only [dot, Pi.neg_apply]
      ring
    rw [hOpposite]
    linarith
  · rename_i hPositive
    exact not_lt.mp hPositive

theorem dot_self_nonneg (q : Fin 4 → ℝ) : 0 ≤ dot q q := by
  have h0 := mul_self_nonneg (q 0)
  have h1 := mul_self_nonneg (q 1)
  have h2 := mul_self_nonneg (q 2)
  have h3 := mul_self_nonneg (q 3)
  unfold dot
  linarith

theorem dot_self_pos {q : Fin 4 → ℝ} (hq : q ≠ 0) : 0 < dot q q := by
  have hPos := sum_squares_pos hq
  unfold dot
  linarith

/-- On the shorter way two quaternions cannot cancel. -/
theorem blend_pos {a : ℝ} {q0 q1 : Fin 4 → ℝ} (hLower : 0 ≤ a) (hUpper : a < 1) (hq : q0 ≠ 0) :
    0 < dot (blend a q0 q1) (blend a q0 q1) := by
  have hExpand : dot (blend a q0 q1) (blend a q0 q1) = (1 - a) ^ 2 * dot q0 q0 +
      2 * (a * (1 - a)) * dot q0 (aligned q0 q1) + a ^ 2 * dot (aligned q0 q1) (aligned q0 q1) := by
    simp only [dot, blend, lerp]
    ring
  have hFirst : 0 < (1 - a) ^ 2 * dot q0 q0 := mul_pos (pow_pos (sub_pos.mpr hUpper) 2) (dot_self_pos hq)
  have hMixed : 0 ≤ 2 * (a * (1 - a)) * dot q0 (aligned q0 q1) :=
    mul_nonneg (mul_nonneg zero_le_two (mul_nonneg hLower (sub_nonneg.mpr hUpper.le))) (dot_aligned q0 q1)
  have hSecond : 0 ≤ a ^ 2 * dot (aligned q0 q1) (aligned q0 q1) := mul_nonneg (sq_nonneg a) (dot_self_nonneg _)
  linarith

theorem normalised_eq (q : Fin 4 → ℝ) (k : Fin 4) : normalised q k = q k / √(dot q q) := by
  rw [normalised, dot]
  congr 2
  ring

theorem blendPoses_ok {a : ℝ} (hLower : 0 ≤ a) (hUpper : a < 1) (T0 T1 : Transform ℝ) :
    ∃ q0 q1 R, rToQuat sqrt (rotationOf T0) = .ok q0 ∧ rToQuat sqrt (rotationOf T1) = .ok q1 ∧
      0 < dot (blend a q0 q1) (blend a q0 q1) ∧ R ∈ Matrix.specialOrthogonalGroup (Fin 3) ℝ ∧
      blendPoses sqrt a T0 T1 = .ok (transformOf R fun i => lerp a (translationOf T0 i) (translationOf T1 i)) := by
  obtain ⟨q0, h0, hNe⟩ := rToQuat_ok (rotationOf T0)
  obtain ⟨q1, h1, -⟩ := rToQuat_ok (rotationOf T1)
  have hPos : 0 < dot (blend a q0 q1) (blend a q0 q1) := blend_pos hLower hUpper hNe
  have hBlend : blend a q0 q1 ≠ 0 := by
    intro hZero
    rw [hZero] at hPos
    simp [dot] at hPos
  have hUnit := unit_normalised hBlend
  refine ⟨q0, q1, _, h0, h1, hPos, unitToR_mem hUnit, ?_⟩
  have hNorm : √(dot (blend a q0 q1) (blend a q0 q1)) ≠ 0 := (sqrt_pos.mpr hPos).ne'
  have hMatrix := quatToR_of_unit hUnit
  simp only [normalised_eq] at hMatrix ⊢
  simp only [blendPoses, h0, h1, mathSqrt_ok sqrt hPos.le, divide_ok hNorm, bind, Except.bind, hMatrix]
  rfl

structure Interpolated (traj : Trajectory ℝ) (tNs : ℤ) (lo : ℕ) (hlo : lo + 1 < traj.length) (a : ℝ) (T : Transform ℝ) :
    Prop where
  search : ∀ h, searchPose traj tNs h = (⟨lo, by omega⟩, ⟨lo + 1, hlo⟩)
  bracketed : traj[lo].1 ≤ tNs ∧ tNs < traj[lo + 1].1
  divisor : traj[lo + 1].1 - traj[lo].1 ≠ 0
  weight : a = ((tNs - traj[lo].1 : ℤ) : ℝ) / ((traj[lo + 1].1 - traj[lo].1 : ℤ) : ℝ) ∧ 0 ≤ a ∧ a < 1
  norm : ∃ q0 q1, rToQuat sqrt (rotationOf traj[lo].2) = .ok q0 ∧ rToQuat sqrt (rotationOf traj[lo + 1].2) = .ok q1 ∧
    √(dot (blend a q0 q1) (blend a q0 q1)) ≠ 0
  translation : ∀ i, translationOf T i = (1 - a) * translationOf traj[lo].2 i + a * translationOf traj[lo + 1].2 i

structure PoseAt (traj : Trajectory ℝ) (tNs : ℤ) : Prop where
  total : ∃ pose, interpPose sqrt traj tNs = .ok pose
  outside : interpPose sqrt traj tNs = .ok none ↔ traj = [] ∨
    (∃ first, traj.head? = some first ∧ tNs ≤ first.1 - halfSecondNs) ∨
      ∃ last, traj.getLast? = some last ∧ last.1 + halfSecondNs ≤ tNs
  inside : ∀ first last, traj.head? = some first → traj.getLast? = some last → first.1 < tNs → tNs < last.1 →
    ∃ lo hlo a T, interpPose sqrt traj tNs = .ok (some T) ∧ Interpolated traj tNs lo hlo a T

section Cases

variable {traj : Trajectory ℝ} {tNs : ℤ} {first last : ℤ × Transform ℝ}

theorem get_head (h : 0 < traj.length) (hFirst : traj.head? = some first) : traj.get ⟨0, h⟩ = first := by
  rw [List.head?_eq_getElem?, List.getElem?_eq_getElem h] at hFirst
  exact Option.some.inj hFirst

theorem get_last (h : traj.length - 1 < traj.length) (hLast : traj.getLast? = some last) :
    traj.get ⟨traj.length - 1, h⟩ = last := by
  rw [List.getLast?_eq_getElem?, List.getElem?_eq_getElem h] at hLast
  exact Option.some.inj hLast

theorem interpPose_of_ends (h : 0 < traj.length) (hFirst : traj.head? = some first) (hLast : traj.getLast? = some last) :
    interpPose sqrt traj tNs =
      if tNs ≤ first.1 then .ok (if |tNs - first.1| < halfSecondNs then some first.2 else none)
      else if last.1 ≤ tNs then .ok (if |tNs - last.1| < halfSecondNs then some last.2 else none)
      else some <$> between sqrt tNs (traj.get (searchPose traj tNs h).1) (traj.get (searchPose traj tNs h).2) := by
  rw [interpPose, dif_pos h, get_head h hFirst, get_last (by omega) hLast]

theorem weight_mem {t0 t1 : ℤ} (hLower : t0 ≤ tNs) (hUpper : tNs < t1) :
    0 ≤ ((tNs - t0 : ℤ) : ℝ) / ((t1 - t0 : ℤ) : ℝ) ∧ ((tNs - t0 : ℤ) : ℝ) / ((t1 - t0 : ℤ) : ℝ) < 1 := by
  have hGap : (0 : ℝ) < ((t1 - t0 : ℤ) : ℝ) := Int.cast_pos.mpr (by omega)
  constructor
  · exact div_nonneg (Int.cast_nonneg (by omega)) hGap.le
  · rw [div_lt_one hGap]
    exact Int.cast_lt.mpr (by omega)

theorem between_eq {sample0 sample1 : ℤ × Transform ℝ} (hLower : sample0.1 ≤ tNs) (hUpper : tNs < sample1.1) :
    between sqrt tNs sample0 sample1 =
      blendPoses sqrt (((tNs - sample0.1 : ℤ) : ℝ) / ((sample1.1 - sample0.1 : ℤ) : ℝ)) sample0.2 sample1.2 := by
  have hGap : ((sample1.1 - sample0.1 : ℤ) : ℝ) ≠ 0 := Int.cast_ne_zero.mpr (by omega)
  rw [between, if_neg (by omega), divide_ok hGap]
  rfl

theorem interpPose_inside (hFirst : traj.head? = some first) (hLast : traj.getLast? = some last) (hAfter : first.1 < tNs)
    (hBefore : tNs < last.1) : ∃ lo hlo a T, interpPose sqrt traj tNs = .ok (some T) ∧ Interpolated traj tNs lo hlo a T := by
  have h : 0 < traj.length := List.length_pos_of_ne_nil fun hNil => by simp [hNil] at hFirst
  have hStart : (traj.get ⟨0, h⟩).1 < tNs := by rwa [get_head h hFirst]
  have hEnd : tNs < (traj.get ⟨traj.length - 1, by omega⟩).1 := by rwa [get_last (by omega) hLast]
  have hSearch := searchPose_spec hStart hEnd
  have hPose : interpPose sqrt traj tNs = _ := interpPose_of_ends h hFirst hLast
  rw [if_neg (not_le.mpr hAfter), if_neg (not_le.mpr hBefore)] at hPose
  rcases hFound : searchPose traj tNs h with ⟨⟨lo, hLoLt⟩, ⟨hi, hHiLt⟩⟩
  rw [hFound] at hSearch hPose
  obtain ⟨hNext, hLower, hUpper⟩ := hSearch
  obtain rfl : hi = lo + 1 := hNext
  obtain ⟨hWeightLower, hWeightUpper⟩ := weight_mem hLower hUpper
  obtain ⟨q0, q1, R, h0, h1, hPos, -, hBlend⟩ :=
    blendPoses_ok hWeightLower hWeightUpper (traj.get ⟨lo, hLoLt⟩).2 (traj.get ⟨lo + 1, hHiLt⟩).2
  rw [between_eq hLower hUpper, hBlend] at hPose
  let a : ℝ := ((tNs - traj[lo].1 : ℤ) : ℝ) / ((traj[lo + 1].1 - traj[lo].1 : ℤ) : ℝ)
  refine ⟨lo, hHiLt, a, _, hPose, ?_⟩
  constructor
  · exact fun _ => hFound
  · exact ⟨hLower, hUpper⟩
  · exact (sub_pos.mpr (hLower.trans_lt hUpper)).ne'
  · exact ⟨rfl, hWeightLower, hWeightUpper⟩
  · exact ⟨q0, q1, h0, h1, (sqrt_pos.mpr hPos).ne'⟩
  · intro i
    rw [translationOf_transformOf]
    rfl

theorem first_le_last (hSorted : traj.Pairwise fun a b => a.1 ≤ b.1) (hFirst : traj.head? = some first)
    (hLast : traj.getLast? = some last) : first.1 ≤ last.1 := by
  cases traj with
  | nil => cases hFirst
  | cons sample rest =>
    cases hFirst
    rw [List.pairwise_cons] at hSorted
    rcases List.mem_cons.mp (List.mem_of_getLast? hLast) with rfl | hRest
    · exact le_rfl
    · exact hSorted.1 last hRest

/-- The pose of an end of the trajectory serves for half a second around it. -/
theorem near_end_eq_none {t : ℤ} (T : Transform ℝ) :
    (if |tNs - t| < halfSecondNs then some T else none) = none ↔ tNs ≤ t - halfSecondNs ∨ t + halfSecondNs ≤ tNs := by
  have hOutside : ¬ |tNs - t| < halfSecondNs ↔ tNs ≤ t - halfSecondNs ∨ t + halfSecondNs ≤ tNs := by
    rw [not_lt, le_abs]
    omega
  rw [← hOutside]
  split
  · rename_i hNear
    exact ⟨nofun, fun h => absurd hNear h⟩
  · rename_i hFar
    exact ⟨fun _ => hFar, fun _ => rfl⟩

theorem interpPose_outside (hSorted : traj.Pairwise fun a b => a.1 ≤ b.1) (hFirst : traj.head? = some first)
    (hLast : traj.getLast? = some last) : (∃ pose, interpPose sqrt traj tNs = .ok pose) ∧
      (interpPose sqrt traj tNs = .ok none ↔ tNs ≤ first.1 - halfSecondNs ∨ last.1 + halfSecondNs ≤ tNs) := by
  have h : 0 < traj.length := List.length_pos_of_ne_nil fun hNil => by simp [hNil] at hFirst
  have hPose : interpPose sqrt traj tNs = _ := interpPose_of_ends h hFirst hLast
  have hOrder := first_le_last hSorted hFirst hLast
  have hHalf : 0 < halfSecondNs := by decide
  by_cases hBefore : tNs ≤ first.1
  · rw [if_pos hBefore] at hPose
    constructor
    · exact ⟨_, hPose⟩
    · rw [hPose, Except.ok.injEq, near_end_eq_none]
      omega
  · rw [if_neg hBefore] at hPose
    by_cases hAfter : last.1 ≤ tNs
    · rw [if_pos hAfter] at hPose
      constructor
      · exact ⟨_, hPose⟩
      · rw [hPose, Except.ok.injEq, near_end_eq_none]
        omega
    · obtain ⟨_, _, _, T, hInside, -⟩ := interpPose_inside hFirst hLast (not_le.mp hBefore) (not_le.mp hAfter)
      constructor
      · exact ⟨_, hInside⟩
      · rw [hInside, Except.ok.injEq]
        constructor
        · intro hNone
          cases hNone
        · omega

theorem pose_at_of_sorted (traj : Trajectory ℝ) (tNs : ℤ) (hSorted : traj.Pairwise fun a b => a.1 ≤ b.1) :
    PoseAt traj tNs := by
  cases hFirst : traj.head? with
  | none =>
    obtain rfl := List.head?_eq_none_iff.mp hFirst
    constructor
    · exact ⟨none, rfl⟩
    · exact ⟨fun _ => .inl rfl, fun _ => rfl⟩
    · intro _ _ hHead
      cases hHead
  | some first =>
    have hNe : traj ≠ [] := fun hNil => by simp [hNil] at hFirst
    have hLast : traj.getLast? = some (traj.getLast hNe) := List.getLast?_eq_some_getLast hNe
    obtain ⟨hTotal, hNone⟩ : (∃ pose, interpPose sqrt traj tNs = .ok pose) ∧ (interpPose sqrt traj tNs = .ok none ↔ _) :=
      interpPose_outside hSorted hFirst hLast
    constructor
    · exact hTotal
    · rw [hNone, hFirst, hLast]
      simp [hNe]
    · intro first' last' hFirst' hLast' hAfter hBefore
      exact interpPose_inside hFirst' hLast' hAfter hBefore

/-- Two samples of one time, and one later. -/
theorem pose_at_of_sorted_repeated_stamp : PoseAt [(0, 1), (0, 1), (2000000000, 1)] 1000000000 :=
  pose_at_of_sorted _ _ (by simp)

end Cases

end

/-! ## The weight as a double -/

/-- `(t_ns - t0) / (t1 - t0)`: the quotient of two integers is the double nearest to it. -/
def doubleWeight (t0 t1 tNs : ℤ) : ℚ := NearestEven.rounded 53 (-1074) ((tNs - t0 : ℤ) / (t1 - t0 : ℤ))

/-- Between two samples the double that is computed for the weight is in `[0, 1)`. -/
def WeightsBelowOne : Prop := ∀ (traj : Trajectory ℚ) tNs (h : 0 < traj.length),
  (traj.Pairwise fun a b => a.1 ≤ b.1) → (traj.get ⟨0, h⟩).1 < tNs → tNs < (traj.get ⟨traj.length - 1, by omega⟩).1 →
    0 ≤ doubleWeight (traj.get (searchPose traj tNs h).1).1 (traj.get (searchPose traj tNs h).2).1 tNs ∧
      doubleWeight (traj.get (searchPose traj tNs h).1).1 (traj.get (searchPose traj tNs h).2).1 tNs < 1

/-- A nanosecond before the end of a gap of `2^54` of them. -/
theorem weightsBelowOne_long_gap : ¬WeightsBelowOne := by
  intro hClaim
  let traj : Trajectory ℚ := [(0, 1), (2 ^ 54, 1)]
  have h : 0 < traj.length := Nat.two_pos
  have hAfter : (traj.get ⟨0, h⟩).1 < 2 ^ 54 - 1 := show (0 : ℤ) < 2 ^ 54 - 1 by decide
  have hBefore : 2 ^ 54 - 1 < (traj.get ⟨traj.length - 1, by omega⟩).1 := show (2 ^ 54 - 1 : ℤ) < 2 ^ 54 by decide
  have hWeight := (hClaim traj _ h (by simp [traj]) hAfter hBefore).2
  obtain ⟨hNext, -, -⟩ := searchPose_spec hAfter hBefore
  rcases hFound : searchPose traj (2 ^ 54 - 1) h with ⟨⟨lo, hLo⟩, ⟨hi, hHi⟩⟩
  rw [hFound] at hWeight hNext
  have hLength : traj.length = 2 := rfl
  obtain rfl : lo = 0 := by
    dsimp only at hNext
    omega
  obtain rfl : hi = 1 := hNext
  have hOne : doubleWeight 0 (2 ^ 54) (2 ^ 54 - 1) = 1 := by decide +kernel
  exact absurd hWeight (not_lt.mpr hOne.ge)

end RoveMapping.ColorMesh
