import Mathlib.Analysis.InnerProductSpace.PiL2
import RoveMapping.Library.Polyline
import RoveMapping.Tuner.FailurePenalty

/-! # The statistics of a trajectory

The drift is the distance between the ends of a polyline whose length is the path, so it is at
most the path, and neither depends on where the map has its origin. The metrics of the drift rely on it.
-/
namespace RoveMapping.Tuner
set_option autoImplicit false

section Definitions

variable {K : Type}

/-- The columns of a trajectory line that the statistics read. -/
structure Pose (K : Type) where
  stamp : K
  x : K
  y : K
  z : K

variable [Field K]

def Pose.moved (dx dy dz : K) (pose : Pose K) : Pose K :=
  { pose with x := pose.x + dx, y := pose.y + dy, z := pose.z + dz }

/-- The length of the step between two poses. -/
def stepLength (sqrt : K → K) (before pose : Pose K) : K :=
  let ddx := pose.x - before.x
  let ddy := pose.y - before.y
  let ddz := pose.z - before.z
  sqrt (ddx * ddx + ddy * ddy + ddz * ddz)

def computeStats [LinearOrder K] (sqrt : K → K) (poses : List (Pose K)) : TrajectoryStats K :=
  match poses with
  | [] =>
    { nPoses := 0, durationS := 0, pathLengthM := 0, startXyz := [0, 0, 0], endXyz := [0, 0, 0], driftM := 0,
      driftPerPath := none }
  | first :: rest =>
    let last := rest.getLastD first
    let driftM := stepLength sqrt first last
    let pathLength := ((first :: rest).zip rest).foldl (fun total pair => total + stepLength sqrt pair.1 pair.2) 0
    { nPoses := (first :: rest).length
      durationS := last.stamp - first.stamp
      pathLengthM := pathLength
      startXyz := [first.x, first.y, first.z]
      endXyz := [last.x, last.y, last.z]
      driftM
      driftPerPath := if 1 / ((10 ^ 6 : ℕ) : K) < pathLength then some (driftM / pathLength) else none }

end Definitions

structure DriftLaws (poses : List (Pose ℝ)) : Prop where
  driftNonneg : 0 ≤ (computeStats Real.sqrt poses).driftM
  driftLePath : (computeStats Real.sqrt poses).driftM ≤ (computeStats Real.sqrt poses).pathLengthM
  ratio : ∀ r ∈ (computeStats Real.sqrt poses).driftPerPath, 0 ≤ r ∧ r ≤ 1
  moved : ∀ dx dy dz, let stats := computeStats Real.sqrt (poses.map (Pose.moved dx dy dz))
    stats.driftM = (computeStats Real.sqrt poses).driftM ∧
      stats.pathLengthM = (computeStats Real.sqrt poses).pathLengthM ∧
        stats.driftPerPath = (computeStats Real.sqrt poses).driftPerPath
  reversed : let stats := computeStats Real.sqrt poses.reverse
    stats.driftM = (computeStats Real.sqrt poses).driftM ∧
      stats.pathLengthM = (computeStats Real.sqrt poses).pathLengthM

section Geometry

noncomputable def Pose.position (pose : Pose ℝ) : EuclideanSpace ℝ (Fin 3) := .toLp _ ![pose.x, pose.y, pose.z]

theorem stepLength_eq_dist (before pose : Pose ℝ) : stepLength Real.sqrt before pose = dist before.position pose.position := by
  rw [EuclideanSpace.dist_eq]
  simp only [stepLength, Pose.position, Real.dist_eq, sq_abs, Fin.sum_univ_three]
  congr 1
  simp
  ring

theorem stepLength_moved (dx dy dz : ℝ) (before pose : Pose ℝ) :
    stepLength Real.sqrt (before.moved dx dy dz) (pose.moved dx dy dz) = stepLength Real.sqrt before pose := by
  simp [stepLength, Pose.moved]

/-- The loop over the poses, as the length of a polyline. -/
theorem pathLengthM_eq (poses : List (Pose ℝ)) :
    (computeStats Real.sqrt poses).pathLengthM = Polyline.length (poses.map Pose.position) := by
  have hLoop : ∀ (pairs : List (Pose ℝ × Pose ℝ)) (total : ℝ),
      pairs.foldl (fun total pair => total + stepLength Real.sqrt pair.1 pair.2) total =
        total + (pairs.map fun pair => dist pair.1.position pair.2.position).sum := by
    intro pairs
    induction pairs with
    | nil => simp
    | cons pair pairs ih =>
      intro total
      rw [List.foldl_cons, ih, List.map_cons, List.sum_cons, stepLength_eq_dist]
      ring
  cases poses with
  | nil => simp [computeStats, Polyline.length, Polyline.steps]
  | cons first rest =>
    simp only [computeStats, hLoop, zero_add, Polyline.length, Polyline.steps_map, List.map_map]
    rfl

theorem driftM_eq {poses : List (Pose ℝ)} {first last : Pose ℝ} (hFirst : poses.head? = some first)
    (hLast : poses.getLast? = some last) :
    (computeStats Real.sqrt poses).driftM = dist first.position last.position := by
  cases poses with
  | nil => cases hFirst
  | cons pose rest =>
    cases hFirst
    rw [List.getLast?_cons, Option.some.injEq] at hLast
    have hEnd : rest.getLastD first = last := by rw [← hLast, List.getLastD_eq_getLast?]
    rw [← hEnd, ← stepLength_eq_dist]
    rfl

theorem driftM_cons (first : Pose ℝ) (rest : List (Pose ℝ)) :
    (computeStats Real.sqrt (first :: rest)).driftM = dist first.position (rest.getLastD first).position :=
  stepLength_eq_dist _ _

theorem driftPerPath_eq (poses : List (Pose ℝ)) :
    (computeStats Real.sqrt poses).driftPerPath =
      if 1 / ((10 ^ 6 : ℕ) : ℝ) < (computeStats Real.sqrt poses).pathLengthM then
        some ((computeStats Real.sqrt poses).driftM / (computeStats Real.sqrt poses).pathLengthM)
      else none := by
  cases poses with
  | nil => simp [computeStats]
  | cons first rest => rfl

theorem driftM_nonneg (poses : List (Pose ℝ)) : 0 ≤ (computeStats Real.sqrt poses).driftM := by
  cases poses with
  | nil => exact le_rfl
  | cons first rest =>
    rw [driftM_cons]
    exact dist_nonneg

theorem driftM_le_pathLengthM (poses : List (Pose ℝ)) :
    (computeStats Real.sqrt poses).driftM ≤ (computeStats Real.sqrt poses).pathLengthM := by
  cases poses with
  | nil => exact le_rfl
  | cons first rest =>
    rw [driftM_cons, pathLengthM_eq]
    have hEnds := Polyline.dist_le_length first.position (rest.map Pose.position)
    rwa [List.getLastD_map] at hEnds

theorem driftM_reverse (poses : List (Pose ℝ)) :
    (computeStats Real.sqrt poses.reverse).driftM = (computeStats Real.sqrt poses).driftM := by
  cases hFirst : poses.head? with
  | none =>
    rw [List.head?_eq_none_iff.mp hFirst, List.reverse_nil]
  | some first =>
    obtain ⟨last, hLast⟩ : ∃ last, poses.getLast? = some last := by
      cases poses with
      | nil => cases hFirst
      | cons pose rest => exact ⟨_, List.getLast?_cons⟩
    have hHead : poses.reverse.head? = some last := by rwa [List.head?_reverse]
    have hEnd : poses.reverse.getLast? = some first := by rwa [List.getLast?_reverse]
    rw [driftM_eq hHead hEnd, driftM_eq hFirst hLast, dist_comm]

theorem pathLengthM_reverse (poses : List (Pose ℝ)) :
    (computeStats Real.sqrt poses.reverse).pathLengthM = (computeStats Real.sqrt poses).pathLengthM := by
  rw [pathLengthM_eq, pathLengthM_eq, List.map_reverse, Polyline.length_reverse]

theorem dist_moved (dx dy dz : ℝ) (before pose : Pose ℝ) :
    dist (before.moved dx dy dz).position (pose.moved dx dy dz).position = dist before.position pose.position := by
  rw [← stepLength_eq_dist, ← stepLength_eq_dist, stepLength_moved]

theorem driftM_moved (dx dy dz : ℝ) (poses : List (Pose ℝ)) :
    (computeStats Real.sqrt (poses.map (Pose.moved dx dy dz))).driftM = (computeStats Real.sqrt poses).driftM := by
  cases poses with
  | nil => rfl
  | cons first rest => rw [List.map_cons, driftM_cons, driftM_cons, List.getLastD_map, dist_moved]

theorem pathLengthM_moved (dx dy dz : ℝ) (poses : List (Pose ℝ)) :
    (computeStats Real.sqrt (poses.map (Pose.moved dx dy dz))).pathLengthM =
      (computeStats Real.sqrt poses).pathLengthM := by
  rw [pathLengthM_eq, pathLengthM_eq, List.map_map]
  exact Polyline.length_map_congr (fun before pose => dist_moved dx dy dz before pose) poses

theorem ratio_mem {poses : List (Pose ℝ)} {r : ℝ} (h : (computeStats Real.sqrt poses).driftPerPath = some r) :
    0 ≤ r ∧ r ≤ 1 := by
  have hDrift := driftM_nonneg poses
  have hPath := driftM_le_pathLengthM poses
  rw [driftPerPath_eq] at h
  split at h
  · cases h
    constructor
    · exact div_nonneg hDrift (hDrift.trans hPath)
    · exact div_le_one_of_le₀ hPath (hDrift.trans hPath)
  · cases h

/-- What the scorer adds to the statistics leaves them producible. -/
theorem producible_of_poses (poses : List (Pose ℝ)) {ratio thickness extent : Option ℝ} (count : ℕ)
    (hRatio : ∀ x ∈ ratio, 0 ≤ x) (hThickness : ∀ x ∈ thickness, 0 ≤ x) (hExtent : ∀ x ∈ extent, 0 ≤ x) :
    Producible { computeStats Real.sqrt poses with
      meanIcpRatio := ratio, loopClosureCount := count, mapThicknessM := thickness, cloudSpatialExtentM := extent } where
  driftNonneg := driftM_nonneg poses
  driftLePath := driftM_le_pathLengthM poses
  driftPerPath := by
    rw [driftPerPath_eq]
    norm_num
  ratioNonneg := hRatio
  thicknessNonneg := hThickness
  extentNonneg := hExtent

end Geometry

/-- The drift is bounded by the path, wherever the map has its origin and whichever way it is walked. -/
theorem drift_bounded_by_path (poses : List (Pose ℝ)) : DriftLaws poses where
  driftNonneg := driftM_nonneg poses
  driftLePath := driftM_le_pathLengthM poses
  ratio _ h := ratio_mem h
  moved dx dy dz := by
    refine ⟨driftM_moved dx dy dz poses, pathLengthM_moved dx dy dz poses, ?_⟩
    rw [driftPerPath_eq, driftPerPath_eq, driftM_moved, pathLengthM_moved]
  reversed := ⟨driftM_reverse poses, pathLengthM_reverse poses⟩

end RoveMapping.Tuner
