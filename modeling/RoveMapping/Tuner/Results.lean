import Mathlib.Data.Rat.Defs

/-! # The records of a trial

Numbers are those of a field `K`, so that the statistics can be read over the rationals or over
the reals. `asdict` turns each record into a dictionary with exactly these keys.
-/
namespace RoveMapping.Tuner
set_option autoImplicit false

structure TrajectoryStats (K : Type) where
  nPoses : ℕ
  durationS : K
  pathLengthM : K
  startXyz : List K
  endXyz : List K
  driftM : K
  driftPerPath : Option K
  meanIcpRatio : Option K := none
  loopClosureCount : ℕ := 0
  mapThicknessM : Option K := none
  cloudSpatialExtentM : Option K := none
  deriving DecidableEq, Repr

structure ScoreResult (K : Type) where
  dbPath : String
  success : Bool
  stats : Option (TrajectoryStats K) := none
  error : Option String := none
  deriving DecidableEq, Repr

structure BagRunResult (K : Type) where
  bagPath : String
  dbPath : Option String
  success : Bool
  durationS : K
  failureReason : Option String := none
  metrics : Option (ScoreResult K) := none
  deriving DecidableEq, Repr

/-- The statistics that a run is judged by, if it has any. -/
def BagRunResult.stats? {K : Type} (run : BagRunResult K) : Option (TrajectoryStats K) :=
  match run.metrics with
  | some score => if run.success ∧ score.success then score.stats else none
  | none => none

/-- Settings that stay constant across a trial; the rate as `str()` writes it. -/
structure EnvConfig where
  lidarTopic : String := "/livox/lidar"
  imuTopic : String := "/imu/data"
  frameId : String := "base_link"
  fixedFrameId : String := ""
  expectedUpdateRate : String := "15.0"
  qos : Int := 1
  deskewing : Bool := true
  bagPlayArgs : List String := []
  deriving DecidableEq, Repr

structure TrialResult (K : Type) where
  trialId : String
  params : List (String × String)
  env : EnvConfig
  runs : List (BagRunResult K)
  success : Bool
  deriving DecidableEq, Repr

end RoveMapping.Tuner
