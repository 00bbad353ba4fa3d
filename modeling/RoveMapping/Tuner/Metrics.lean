import Mathlib.Algebra.BigOperators.Ring.List
import Mathlib.Algebra.Order.Floor.Semiring
import Mathlib.Data.Rat.Floor
import Mathlib.Tactic.FieldSimp
import Mathlib.Tactic.NormNum
import RoveMapping.Library.OrderStatistics
import RoveMapping.Tuner.Results

/-! # The metric registry and its aggregators

A metric turns the statistics of each bag into a number, puts a constant in place of a failed bag,
and aggregates. Every aggregator is a positive combination of ranks.
-/
namespace RoveMapping.Tuner
open OrderStatistics
set_option autoImplicit false

inductive Direction where
  | minimize | maximize
  deriving DecidableEq, Repr

inductive Aggregator where
  | median | max | min | mean | q75 | q90
  deriving DecidableEq, Repr

structure MetricSpec (K : Type) where
  name : String
  direction : Direction
  extract : TrajectoryStats K → K
  failValue : K
  aggregator : Aggregator := .median

section Definitions

variable {K : Type} [Field K] [LinearOrder K]

/-- `float(value or default)`: zero counts as missing. -/
def orElse (value : Option K) (default : K) : K :=
  match value with
  | some x => if x = 0 then default else x
  | none => default

def driftPerPath (stats : TrajectoryStats K) : K := orElse stats.driftPerPath 1

def extentPenalty (stats : TrajectoryStats K) : K :=
  let path := orElse (some stats.pathLengthM) 0
  max 0 (min 1 ((path - 5) / 15)) * max 0 (orElse stats.cloudSpatialExtentM 0 / max path (1 / 10) - 1)

def driftPerPathWithExtentPenalty (stats : TrajectoryStats K) : K := driftPerPath stats * (1 + extentPenalty stats)

def driftMetric : MetricSpec K :=
  { name := "drift_m", direction := .minimize, extract := TrajectoryStats.driftM, failValue := 5 }

def metrics : List (MetricSpec K) := [
  driftMetric,
  { name := "drift_per_path", direction := .minimize, extract := driftPerPath, failValue := 1 },
  { name := "max_drift_per_path", direction := .minimize, extract := driftPerPath, failValue := 1, aggregator := .max },
  { name := "max_drift_m", direction := .minimize, extract := TrajectoryStats.driftM, failValue := 5, aggregator := .max },
  { name := "q75_drift_per_path", direction := .minimize, extract := driftPerPath, failValue := 1, aggregator := .q75 },
  { name := "q90_drift_per_path", direction := .minimize, extract := driftPerPath, failValue := 1, aggregator := .q90 },
  { name := "mean_icp_ratio", direction := .maximize, extract := fun s => orElse s.meanIcpRatio 0, failValue := 0 },
  { name := "loop_closure_count", direction := .maximize,
    extract := fun s => orElse (some (s.loopClosureCount : K)) 0, failValue := 0 },
  { name := "map_thickness_m", direction := .minimize, extract := fun s => orElse s.mapThicknessM 1, failValue := 1 },
  { name := "cloud_spatial_extent_m", direction := .maximize,
    extract := fun s => orElse s.cloudSpatialExtentM 0, failValue := 0 },
  { name := "drift_per_path_with_extent_penalty", direction := .minimize,
    extract := driftPerPathWithExtentPenalty, failValue := 1 }]

def median (values : List K) : K :=
  let n := values.length
  if n % 2 = 1 then ranked 0 values (n / 2) else (ranked 0 values (n / 2 - 1) + ranked 0 values (n / 2)) / 2

def quantile [FloorSemiring K] (values : List K) (q : K) : K :=
  match values with
  | [] => 0
  | [x] => x
  | _ =>
    let last := values.length - 1
    let idx := q * last
    let lo := ⌊idx⌋₊
    let hi := min (lo + 1) last
    let frac := idx - lo
    ranked 0 values lo * (1 - frac) + ranked 0 values hi * frac

def maximum : List K → K
  | [] => 0
  | x :: rest => rest.foldl max x

def minimum : List K → K
  | [] => 0
  | x :: rest => rest.foldl min x

/-- What a run contributes. The keys that `extract` reads are always there. -/
def MetricSpec.value (metric : MetricSpec K) (run : BagRunResult K) : K := run.stats?.elim metric.failValue metric.extract

def aggregate [FloorSemiring K] (aggregator : Aggregator) (values : List K) : K :=
  match aggregator with
  | .median => median values
  | .max => maximum values
  | .min => minimum values
  | .mean => values.sum / values.length
  | .q75 => quantile values (3 / 4)
  | .q90 => quantile values (9 / 10)

def aggregateMetric [FloorSemiring K] (metric : MetricSpec K) (runs : List (BagRunResult K)) : K × List K :=
  let values := runs.map metric.value
  (if values = [] then metric.failValue else aggregate metric.aggregator values, values)

end Definitions

section Ranks

variable {K : Type} [Field K] [LinearOrder K] [FloorSemiring K]

def quantilePicks (q : K) (n : ℕ) : List (ℕ × K) :=
  let idx := q * ((n - 1 : ℕ) : K)
  let lo := ⌊idx⌋₊
  if idx = lo then [(lo, 1)] else [(lo, 1 - (idx - lo)), (lo + 1, idx - lo)]

/-- The ranks that an aggregator reads from `n` values, with their weights. -/
def Aggregator.picks (aggregator : Aggregator) (n : ℕ) : List (ℕ × K) :=
  match aggregator with
  | .median => if n % 2 = 1 then [(n / 2, 1)] else [(n / 2 - 1, 1 / 2), (n / 2, 1 / 2)]
  | .max => [(n - 1, 1)]
  | .min => [(0, 1)]
  | .mean => (List.range n).map fun j => (j, 1 / (n : K))
  | .q75 => quantilePicks (3 / 4) n
  | .q90 => quantilePicks (9 / 10) n

theorem median_eq_combine (values : List K) : median values = combine (Aggregator.median.picks values.length) values := by
  simp only [median, Aggregator.picks]
  split
  · simp [combine]
  · simp [combine]
    ring

theorem maximum_eq_combine {values : List K} (h : values ≠ []) :
    maximum values = combine (Aggregator.max.picks values.length) values := by
  match values with
  | x :: rest => simp [maximum, foldl_max_eq_ranked 0 x rest, Aggregator.picks, combine]

theorem minimum_eq_combine {values : List K} (h : values ≠ []) :
    minimum values = combine (Aggregator.min.picks values.length) values := by
  match values with
  | x :: rest => simp [minimum, foldl_min_eq_ranked 0 x rest, Aggregator.picks, combine]

theorem mean_eq_combine (values : List K) :
    values.sum / values.length = combine (Aggregator.mean.picks values.length) values := by
  have hSum : ((List.range values.length).map (ranked 0 values)).sum = values.sum := by
    rw [map_ranked_range]
    exact (List.perm_insertionSort _ values).sum_eq
  rw [← hSum]
  simp [combine, Aggregator.picks, Function.comp_def, List.sum_map_mul_left, div_eq_inv_mul]

variable [IsStrictOrderedRing K]

theorem floor_lt_last {q : K} (h0 : 0 ≤ q) (h1 : q ≤ 1) {last : ℕ} (hBetween : q * last ≠ ⌊q * last⌋₊) :
    ⌊q * last⌋₊ < last := by
  have hHigh : q * last ≤ last := mul_le_of_le_one_left (Nat.cast_nonneg _) h1
  refine lt_of_le_of_ne (Nat.floor_le_of_le hHigh) fun hEq => hBetween ?_
  have hLow := Nat.floor_le (mul_nonneg h0 (Nat.cast_nonneg (α := K) last))
  rw [hEq] at hLow ⊢
  exact le_antisymm hHigh hLow

theorem quantilePicks_sound {q : K} (h0 : 0 ≤ q) (h1 : q ≤ 1) {n : ℕ} (hn : 0 < n) : Sound (quantilePicks q n) n := by
  have hLow := Nat.floor_le (mul_nonneg h0 (Nat.cast_nonneg (α := K) (n - 1)))
  have hHigh := Nat.lt_floor_add_one (q * ((n - 1 : ℕ) : K))
  dsimp only [quantilePicks]
  split
  · rename_i hExact
    have hLe : ⌊q * ((n - 1 : ℕ) : K)⌋₊ ≤ n - 1 :=
      Nat.floor_le_of_le (mul_le_of_le_one_left (Nat.cast_nonneg _) h1)
    intro pick hPick
    rw [List.mem_singleton.mp hPick]
    exact ⟨zero_lt_one, by dsimp only; omega⟩
  · rename_i hBetween
    have hLt := floor_lt_last h0 h1 hBetween
    intro pick hPick
    rcases List.mem_pair.mp hPick with rfl | rfl
    · exact ⟨by linarith, by dsimp only; omega⟩
    · exact ⟨sub_pos.mpr (lt_of_le_of_ne hLow (Ne.symm hBetween)), by dsimp only; omega⟩

theorem picks_sound (aggregator : Aggregator) {n : ℕ} (hn : 0 < n) : Sound (aggregator.picks n : List (ℕ × K)) n := by
  cases aggregator with
  | median =>
    simp only [Aggregator.picks]
    split
    · intro pick hPick
      rw [List.mem_singleton.mp hPick]
      exact ⟨zero_lt_one, by dsimp only; omega⟩
    · intro pick hPick
      rcases List.mem_pair.mp hPick with rfl | rfl
      · exact ⟨one_half_pos, by dsimp only; omega⟩
      · exact ⟨one_half_pos, by dsimp only; omega⟩
  | max => simp [Aggregator.picks, Sound, hn]
  | min => simp [Aggregator.picks, Sound, hn]
  | mean => simp [Aggregator.picks, Sound, hn]
  | q75 => exact quantilePicks_sound (by norm_num) (by norm_num) hn
  | q90 => exact quantilePicks_sound (by norm_num) (by norm_num) hn

theorem quantile_eq_combine {q : K} (h0 : 0 ≤ q) (h1 : q ≤ 1) {values : List K} (h : values ≠ []) :
    quantile values q = combine (quantilePicks q values.length) values := by
  match values with
  | [x] => simp [quantile, quantilePicks, combine, ranked, sorted]
  | x :: y :: rest =>
    dsimp only [quantile, quantilePicks]
    split
    · rename_i hExact
      rw [sub_eq_zero.mpr hExact]
      simp [combine]
    · rename_i hBetween
      rw [min_eq_left (floor_lt_last h0 h1 hBetween)]
      simp [combine, mul_comm]

theorem aggregate_eq_combine (aggregator : Aggregator) {values : List K} (h : values ≠ []) :
    aggregate aggregator values = combine (aggregator.picks values.length) values := by
  cases aggregator with
  | median => exact median_eq_combine values
  | max => exact maximum_eq_combine h
  | min => exact minimum_eq_combine h
  | mean => exact mean_eq_combine values
  | q75 => exact quantile_eq_combine (by norm_num) (by norm_num) h
  | q90 => exact quantile_eq_combine (by norm_num) (by norm_num) h

end Ranks
end RoveMapping.Tuner
