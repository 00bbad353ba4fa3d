import RoveMapping.Library.Binary64
import RoveMapping.Library.Fallible
import RoveMapping.Library.PythonFloat
import RoveMapping.Library.PythonText
import RoveMapping.Tuner.Trajectory
import RoveMapping.Tuner.TrialRunner

/-! # The gate in front of the score

From the text of the exported trajectory to the verdict of `score_run`, in the arithmetic of `Float`. A path
that is not a number is not below the minimum.
-/
namespace RoveMapping.Tuner.Scoring
open TrialRunner (minNPoses)
set_option autoImplicit false

section Statistics

variable {K : Type} [OfNat K 0] [Add K] [Sub K] [Mul K] [Div K] [LT K] [DecidableLT K]

/-- The length of the step between two poses, with a square root that may raise. -/
def stepLength (sqrt : K → Except String K) (before pose : Pose K) : Except String K :=
  let ddx := pose.x - before.x
  let ddy := pose.y - before.y
  let ddz := pose.z - before.z
  sqrt (ddx * ddx + ddy * ddy + ddz * ddz)

def pathLength (sqrt : K → Except String K) (steps : List (Pose K × Pose K)) : Except String K :=
  steps.foldlM (fun total step => do return total + (← stepLength sqrt step.1 step.2)) 0

def computeStats (tiny : K) (sqrt : K → Except String K) (poses : List (Pose K)) : Except String (TrajectoryStats K) :=
  match poses with
  | [] =>
    .ok { nPoses := 0, durationS := 0, pathLengthM := 0, startXyz := [0, 0, 0], endXyz := [0, 0, 0], driftM := 0,
          driftPerPath := none }
  | first :: rest => do
    let last := rest.getLastD first
    let driftM ← stepLength sqrt first last
    let path ← pathLength sqrt (Polyline.steps (first :: rest))
    return { nPoses := (first :: rest).length
             durationS := last.stamp - first.stamp
             pathLengthM := path
             startXyz := [first.x, first.y, first.z]
             endXyz := [last.x, last.y, last.z]
             driftM
             driftPerPath := if tiny < path then some (driftM / path) else none }

end Statistics

/-- In exact arithmetic these are the statistics of the polyline. -/
theorem computeStats_exact {K : Type} [Field K] [LinearOrder K] (sqrt : K → K) (poses : List (Pose K)) :
    computeStats (1 / ((10 ^ 6 : ℕ) : K)) (fun x => .ok (sqrt x)) poses = .ok (Tuner.computeStats sqrt poses) := by
  have hLoop : ∀ (steps : List (Pose K × Pose K)) (total : K),
      steps.foldlM (fun total step => do return total + (← stepLength (fun x => .ok (sqrt x)) step.1 step.2)) total =
        (.ok (steps.foldl (fun total step => total + Tuner.stepLength sqrt step.1 step.2) total) : Except String K) := by
    intro steps
    induction steps with
    | nil => exact fun total => rfl
    | cons step rest ih => exact fun total => ih _
  cases poses with
  | nil => rfl
  | cons first rest =>
    rw [computeStats, pathLength, hLoop]
    rfl

/-! ## Reading the trajectory -/

structure TumPose extends Pose Float where
  qx : Float
  qy : Float
  qz : Float
  qw : Float

def parseLine (line : List Char) : Option TumPose :=
  let line := PythonText.strip line
  let parts := PythonText.split line
  if line = [] ∨ line.head? = some '#' ∨ parts.length < 8 then none
  else
    match (parts.take 8).mapM PythonFloat.parse with
    | some [stamp, x, y, z, qx, qy, qz, qw] => some { stamp, x, y, z, qx, qy, qz, qw }
    | _ => none

/-- Lines that are not poses are skipped. -/
def parseTum (content : List Char) : List TumPose :=
  (PythonText.splitlines (PythonText.universalNewlines content)).filterMap parseLine

/-! ## Scoring -/

def mathSqrt (x : Float) : Except String Float :=
  if x.sqrt.isNaN ∧ ¬x.isNaN then .error "math domain error" else .ok x.sqrt

def minPathLengthM : Float := 0.3

/-- What `score_run` finds around it. Each step gives its result, or the text of the exception that it raises. -/
structure Artifacts where
  dbPath : String
  mkdir : Except String Unit
  dbExists : Except String Bool
  /-- The content of `trajectory.tum` after the export. -/
  trajectory : Except String (List Char)
  meanIcpRatio : Except String (Option Float)
  loopClosureCount : Except String ℕ
  mapThicknessM : Except String (Option Float)
  cloudSpatialExtentM : Except String (Option Float)
  writeMetrics : Except String Unit

namespace Artifacts

def poses (run : Artifacts) : List TumPose :=
  match run.trajectory with
  | .ok content => parseTum content
  | .error _ => []

def stats (run : Artifacts) : Except String (TrajectoryStats Float) := do
  if ← run.dbExists then
    let content ← run.trajectory
    let stats ← computeStats 1e-6 mathSqrt ((parseTum content).map TumPose.toPose)
    let meanIcpRatio ← run.meanIcpRatio
    let loopClosureCount ← run.loopClosureCount
    let mapThicknessM ← run.mapThicknessM
    let cloudSpatialExtentM ← run.cloudSpatialExtentM
    return { stats with meanIcpRatio, loopClosureCount, mapThicknessM, cloudSpatialExtentM }
  else .error s!"database does not exist: {run.dbPath}"

end Artifacts

def rejectDegenerate (stats : TrajectoryStats Float) : Except String (TrajectoryStats Float) :=
  if stats.nPoses < minNPoses then
    .error s!"trajectory too sparse: {stats.nPoses} poses (min 5); likely metric gaming"
  else if stats.pathLengthM < minPathLengthM then
    .error s!"trajectory too short: {Decimal.fixed 3 (Binary64.toRat stats.pathLengthM)}m path (min 0.3m); likely metric gaming"
  else .ok stats

def Artifacts.verdict (run : Artifacts) : ScoreResult Float :=
  match run.stats.bind rejectDegenerate with
  | .ok stats => { dbPath := run.dbPath, success := true, stats := some stats }
  | .error text => { dbPath := run.dbPath, success := false, error := some text }

def scoreRun (run : Artifacts) : Except String (ScoreResult Float) := do
  run.mkdir
  let result := run.verdict
  run.writeMetrics
  return result

/-! ## Steps without a length -/

/-- The difference of the two is not a number. -/
def Undefined (x y : Float) : Prop := x.isNaN = true ∨ y.isNaN = true ∨ (x.isInf = true ∧ (x == y) = true)

/-- On one axis a NaN, or twice the same infinity. -/
def Lost (step : Pose Float × Pose Float) : Prop :=
  Undefined step.2.x step.1.x ∨ Undefined step.2.y step.1.y ∨ Undefined step.2.z step.1.z

open Binary64 (Unsigned)

theorem mathSqrt_of_unsigned {x : Float} (hx : Unsigned x) : mathSqrt x = .ok x.sqrt := by
  have hSame := (Binary64.sqrt_spec hx).1
  rw [mathSqrt, hSame, if_neg]
  rintro ⟨hNaN, hNumber⟩
  exact hNumber hNaN

theorem isNaN_square (x y : Float) : ((x - y) * (x - y)).isNaN = true ↔ Undefined x y := by
  rw [(Binary64.square_spec _).1]
  exact Binary64.isNaN_sub_iff

theorem stepLength_spec (before pose : Pose Float) :
    ∃ length, stepLength mathSqrt before pose = .ok length ∧ Unsigned length ∧ (length.isNaN = true ↔ Lost (before, pose)) := by
  have hx := Binary64.square_spec (pose.x - before.x)
  have hy := Binary64.square_spec (pose.y - before.y)
  have hz := Binary64.square_spec (pose.z - before.z)
  have hxy := Binary64.add_spec hx.2 hy.2
  have hSum := Binary64.add_spec hxy.2 hz.2
  have hRoot := Binary64.sqrt_spec hSum.2
  refine ⟨_, mathSqrt_of_unsigned hSum.2, hRoot.2, ?_⟩
  rw [hRoot.1, hSum.1, hxy.1, Bool.or_eq_true, Bool.or_eq_true, isNaN_square, isNaN_square, isNaN_square, or_assoc]
  rfl

/-- The sum of the lengths is not a number exactly when a step has none. -/
theorem sum_spec (steps : List (Pose Float × Pose Float)) {total : Float} (hTotal : Unsigned total) :
    ∃ path, steps.foldlM (fun total step => do return total + (← stepLength mathSqrt step.1 step.2)) total =
        (.ok path : Except String Float) ∧
      (path.isNaN = true ↔ total.isNaN = true ∨ ∃ step ∈ steps, Lost step) := by
  induction steps generalizing total with
  | nil => exact ⟨total, rfl, by simp⟩
  | cons step rest ih =>
    obtain ⟨length, hLength, hUnsigned, hLost⟩ := stepLength_spec step.1 step.2
    have hAdd := Binary64.add_spec hTotal hUnsigned
    obtain ⟨path, hPath, hNaN⟩ := ih hAdd.2
    refine ⟨path, ?_, ?_⟩
    · rw [List.foldlM_cons, hLength]
      exact hPath
    · rw [hNaN, hAdd.1, Bool.or_eq_true, hLost, or_assoc]
      simp only [List.mem_cons, exists_eq_or_imp]

theorem computeStats_spec (poses : List (Pose Float)) :
    ∃ stats, computeStats 1e-6 mathSqrt poses = .ok stats ∧ stats.nPoses = poses.length ∧
      (stats.pathLengthM.isNaN = true ↔ ∃ step ∈ Polyline.steps poses, Lost step) := by
  cases poses with
  | nil =>
    refine ⟨_, rfl, rfl, ?_⟩
    constructor
    · exact fun h => absurd h (by decide +kernel)
    · exact nofun
  | cons first rest =>
    obtain ⟨drift, hDrift, -, -⟩ := stepLength_spec first (rest.getLastD first)
    obtain ⟨path, hPath, hNaN⟩ := sum_spec (Polyline.steps (first :: rest)) Binary64.unsigned_zero
    have hNever : ¬(0 : Float).isNaN = true := by decide +kernel
    rw [or_iff_right hNever] at hNaN
    rw [computeStats, hDrift, pathLength, hPath]
    exact ⟨_, rfl, rfl, hNaN⟩

/-! ## The gate -/

def Gated (run : Artifacts) (result : ScoreResult Float) : Prop :=
  (result.success = true ∧ ∃ stats, result.stats = some stats ∧ minNPoses ≤ run.poses.length ∧ stats.nPoses = run.poses.length ∧
      minPathLengthM ≤ stats.pathLengthM) ∨
    (result.success = false ∧ result.stats = none)

namespace Artifacts

/-- Nothing raises before the gate. -/
structure Complete (run : Artifacts) : Prop where
  dbExists : run.dbExists = .ok true
  trajectory : run.trajectory.isOk
  meanIcpRatio : run.meanIcpRatio.isOk
  loopClosureCount : run.loopClosureCount.isOk
  mapThicknessM : run.mapThicknessM.isOk
  cloudSpatialExtentM : run.cloudSpatialExtentM.isOk

/-- Consecutive poses have a distance, be it infinite. -/
def Measurable (run : Artifacts) : Prop := ∀ step ∈ Polyline.steps (run.poses.map TumPose.toPose), ¬Lost step

end Artifacts

theorem isOk_of_eq {ε α : Type} {x : Except ε α} {a : α} (h : x = .ok a) : x.isOk = true := by
  rw [h]
  rfl

theorem exists_of_isOk {ε α : Type} {x : Except ε α} (h : x.isOk = true) : ∃ a, x = .ok a := by
  cases x with
  | error exc => cases h
  | ok a => exact ⟨a, rfl⟩

theorem stats_spec {run : Artifacts} {stats : TrajectoryStats Float} (h : run.stats = .ok stats) :
    run.Complete ∧ stats.nPoses = run.poses.length ∧ (stats.pathLengthM.isNaN = true ↔ ¬run.Measurable) := by
  obtain ⟨found, hFound, h⟩ := Fallible.bind_ok h
  split at h
  · rename_i hYes
    subst hYes
    obtain ⟨content, hContent, h⟩ := Fallible.bind_ok h
    have hPoses : run.poses = parseTum content := by rw [Artifacts.poses, hContent]
    obtain ⟨computed, hComputed, hCount, hNaN⟩ := computeStats_spec (run.poses.map TumPose.toPose)
    rw [← hPoses, hComputed] at h
    obtain ⟨_, hSame, h⟩ := Fallible.bind_ok h
    cases hSame
    obtain ⟨ratio, hRatio, h⟩ := Fallible.bind_ok h
    obtain ⟨count, hClosures, h⟩ := Fallible.bind_ok h
    obtain ⟨thickness, hThickness, h⟩ := Fallible.bind_ok h
    obtain ⟨extent, hExtent, h⟩ := Fallible.bind_ok h
    cases h
    refine ⟨⟨hFound, isOk_of_eq hContent, isOk_of_eq hRatio, isOk_of_eq hClosures, isOk_of_eq hThickness, isOk_of_eq hExtent⟩,
      by rw [hCount, List.length_map], ?_⟩
    rw [hNaN, Artifacts.Measurable]
    push Not
    rfl
  · cases h

theorem stats_of_complete {run : Artifacts} (h : run.Complete) : ∃ stats, run.stats = .ok stats := by
  obtain ⟨content, hContent⟩ := exists_of_isOk h.trajectory
  obtain ⟨ratio, hRatio⟩ := exists_of_isOk h.meanIcpRatio
  obtain ⟨count, hClosures⟩ := exists_of_isOk h.loopClosureCount
  obtain ⟨thickness, hThickness⟩ := exists_of_isOk h.mapThicknessM
  obtain ⟨extent, hExtent⟩ := exists_of_isOk h.cloudSpatialExtentM
  obtain ⟨computed, hComputed, -⟩ := computeStats_spec ((parseTum content).map TumPose.toPose)
  refine Fallible.bind_ok_iff.mpr ⟨true, h.dbExists, ?_⟩
  rw [if_pos rfl]
  refine Fallible.bind_ok_iff.mpr ⟨content, hContent, ?_⟩
  refine Fallible.bind_ok_iff.mpr ⟨computed, hComputed, ?_⟩
  refine Fallible.bind_ok_iff.mpr ⟨ratio, hRatio, ?_⟩
  refine Fallible.bind_ok_iff.mpr ⟨count, hClosures, ?_⟩
  refine Fallible.bind_ok_iff.mpr ⟨thickness, hThickness, ?_⟩
  exact Fallible.bind_ok_iff.mpr ⟨extent, hExtent, _, rfl⟩

theorem minPathLengthM_number : minPathLengthM.isNaN = false := by
  decide +kernel

theorem rejectDegenerate_cases (stats : TrajectoryStats Float) :
    (∃ text, rejectDegenerate stats = .error text ∧ (stats.nPoses < minNPoses ∨ stats.pathLengthM < minPathLengthM)) ∨
      rejectDegenerate stats = .ok stats ∧ minNPoses ≤ stats.nPoses ∧ ¬stats.pathLengthM < minPathLengthM := by
  unfold rejectDegenerate
  split
  · rename_i hFew
    exact .inl ⟨_, rfl, .inl hFew⟩
  · rename_i hEnough
    split
    · rename_i hShort
      exact .inl ⟨_, rfl, .inr hShort⟩
    · rename_i hLong
      exact .inr ⟨rfl, Nat.not_lt.mp hEnough, hLong⟩

/-- The gate keeps its promise unless everything before it succeeds, the poses are enough and two neighbours have no distance. -/
theorem gated_iff_measurable {run : Artifacts} {result : ScoreResult Float} (h : scoreRun run = .ok result) :
    Gated run result ↔ (run.Complete → minNPoses ≤ run.poses.length → run.Measurable) := by
  obtain ⟨-, -, h⟩ := Fallible.bind_ok h
  obtain ⟨-, -, h⟩ := Fallible.bind_ok h
  cases h
  cases hStats : run.stats with
  | error text =>
    have hVerdict : run.verdict = { dbPath := run.dbPath, success := false, error := some text } := by
      rw [Artifacts.verdict, hStats, Except.bind]
    rw [hVerdict]
    refine iff_of_true (.inr ⟨rfl, rfl⟩) fun hComplete => ?_
    obtain ⟨stats, hOk⟩ := stats_of_complete hComplete
    rw [hStats] at hOk
    cases hOk
  | ok stats =>
    obtain ⟨hComplete, hCount, hNaN⟩ := stats_spec hStats
    obtain ⟨text, hReject, hDegenerate⟩ | ⟨hAccept, hEnough, hLong⟩ := rejectDegenerate_cases stats
    · have hVerdict : run.verdict = { dbPath := run.dbPath, success := false, error := some text } := by
        rw [Artifacts.verdict, hStats, Except.bind, hReject]
      rw [hVerdict]
      refine iff_of_true (.inr ⟨rfl, rfl⟩) fun _ hEnough => ?_
      obtain hFew | hShort := hDegenerate
      · rw [hCount] at hFew
        exact absurd hEnough (Nat.not_le.mpr hFew)
      · by_contra hLost
        exact Binary64.not_lt_of_isNaN (hNaN.mpr hLost) hShort
    · have hVerdict : run.verdict = { dbPath := run.dbPath, success := true, stats := some stats } := by
        rw [Artifacts.verdict, hStats, Except.bind, hAccept]
      rw [hVerdict]
      rw [hCount] at hEnough
      constructor
      · rintro (⟨-, _, hSame, -, -, hLe⟩ | ⟨hFalse, -⟩) _ _
        · cases hSame
          by_contra hLost
          exact Binary64.not_le_of_isNaN (hNaN.mpr hLost) hLe
        · cases hFalse
      · intro hMeasurable
        have hNumber : stats.pathLengthM.isNaN = false := by
          rw [Bool.eq_false_iff, ne_eq, hNaN, not_not]
          exact hMeasurable hComplete hEnough
        exact .inl ⟨rfl, stats, rfl, hEnough, hCount, Binary64.le_of_not_lt hNumber minPathLengthM_number hLong⟩

def exported (content : String) : Artifacts where
  dbPath := "/data/trial_0/hallway/rtabmap.db"
  mkdir := .ok ()
  dbExists := .ok true
  trajectory := .ok content.toList
  meanIcpRatio := .ok none
  loopClosureCount := .ok 0
  mapThicknessM := .ok none
  cloudSpatialExtentM := .ok none
  writeMetrics := .ok ()

def straightLine : Artifacts :=
  exported "# stamp\n0 0 0 0 0 0 0 1\n1 1 0 0 0 0 0 1\n\n2 2 0 0 0 0 0 1\n3 inf 0 0 0 0 0 1\nx\n4 4 0 0 0 0 0 1\n"

def lostPose : Artifacts :=
  exported "0 0 0 0 0 0 0 1\n1 1 0 0 0 0 0 1\n2 nan 0 0 0 0 0 1\n3 3 0 0 0 0 0 1\n4 4 0 0 0 0 0 1\n"

instance (x y : Float) : Decidable (Undefined x y) := inferInstanceAs (Decidable (_ ∨ _ ∨ _))

instance (step : Pose Float × Pose Float) : Decidable (Lost step) := inferInstanceAs (Decidable (_ ∨ _ ∨ _))

instance (run : Artifacts) : Decidable run.Measurable := List.decidableBAll _ _

theorem gated_iff_measurable_straight_line : straightLine.verdict.success = true ∧ Gated straightLine straightLine.verdict :=
  ⟨by decide +kernel, (gated_iff_measurable rfl).mpr fun _ _ => by decide +kernel⟩

/-- For every text, and whatever else is found. -/
def GateHolds : Prop := ∀ run result, scoreRun run = .ok result → Gated run result

/-- A coordinate that is not a number passes both checks. -/
theorem gateHolds_lost_pose : ¬GateHolds := by
  intro hGate
  have hSuccess : lostPose.verdict.success = true := by decide +kernel
  have hShort : (lostPose.verdict.stats.map fun stats => decide (minPathLengthM ≤ stats.pathLengthM)) = some false := by
    decide +kernel
  obtain ⟨-, stats, hStats, -, -, hLe⟩ | ⟨hFailed, -⟩ := hGate lostPose _ rfl
  · rw [hStats, Option.map_some, decide_eq_true hLe] at hShort
    cases hShort
  · rw [hSuccess] at hFailed
    cases hFailed

end RoveMapping.Tuner.Scoring
