import RoveMapping.Tuner.FailurePenalty

/-! # What a better bag is worth

A successful bag records a better number for the statistic that a metric reads. The value of the
metric gets worse exactly when the number is a zero that `or` takes for a missing one, and the
aggregator reads a rank between the old number and the default.
-/
namespace RoveMapping.Tuner
open OrderStatistics
set_option autoImplicit false

/-- The numbers of a run that a metric may read. -/
inductive Statistic where
  | driftM | driftPerPath | meanIcpRatio | loopClosureCount | mapThicknessM | cloudSpatialExtentM
  deriving DecidableEq, Repr

/-- The metrics that read one number, by their names. -/
def singleNumber : List (String × Statistic) := [
  ("drift_m", .driftM), ("max_drift_m", .driftM),
  ("drift_per_path", .driftPerPath), ("max_drift_per_path", .driftPerPath),
  ("q75_drift_per_path", .driftPerPath), ("q90_drift_per_path", .driftPerPath),
  ("mean_icp_ratio", .meanIcpRatio), ("loop_closure_count", .loopClosureCount),
  ("map_thickness_m", .mapThicknessM), ("cloud_spatial_extent_m", .cloudSpatialExtentM)]

section Statements

variable {K : Type} [Field K] [LinearOrder K]

def Statistic.read (statistic : Statistic) (stats : TrajectoryStats K) : Option K :=
  match statistic with
  | .driftM => some stats.driftM
  | .driftPerPath => stats.driftPerPath
  | .meanIcpRatio => stats.meanIcpRatio
  | .loopClosureCount => some stats.loopClosureCount
  | .mapThicknessM => stats.mapThicknessM
  | .cloudSpatialExtentM => stats.cloudSpatialExtentM

def Statistic.erase (statistic : Statistic) (stats : TrajectoryStats K) : TrajectoryStats K :=
  match statistic with
  | .driftM => { stats with driftM := 0 }
  | .driftPerPath => { stats with driftPerPath := none }
  | .meanIcpRatio => { stats with meanIcpRatio := none }
  | .loopClosureCount => { stats with loopClosureCount := 0 }
  | .mapThicknessM => { stats with mapThicknessM := none }
  | .cloudSpatialExtentM => { stats with cloudSpatialExtentM := none }

/-- The statistics of which a zero counts as missing; their default is the worst value. -/
def Statistic.ZeroIsMissing (statistic : Statistic) : Prop := statistic = .driftPerPath ∨ statistic = .mapThicknessM

instance (statistic : Statistic) : Decidable statistic.ZeroIsMissing := inferInstanceAs (Decidable (_ ∨ _))

/-- The second statistics differ from the first in one number, which is better. -/
structure Better (direction : Direction) (statistic : Statistic) (stats stats' : TrajectoryStats K) (x x' : K) : Prop where
  others : statistic.erase stats' = statistic.erase stats
  old : statistic.read stats = some x
  new : statistic.read stats' = some x'
  oldNonneg : 0 ≤ x
  newNonneg : 0 ≤ x'
  improves : Improves direction x x'

variable [FloorSemiring K]

/-- No threshold from the old number up to the default has as many of the other bags at or below it
as a rank that the aggregator reads. -/
def DefaultUnread (metric : MetricSpec K) (runs : List (BagRunResult K)) (i : ℕ) (x : K) : Prop :=
  ∀ pick ∈ (metric.aggregator.picks runs.length : List (ℕ × K)), ∀ t, x ≤ t → t < 1 →
    countLe ((runs.eraseIdx i).map metric.value) t ≠ pick.1

end Statements

/-- Over the rationals, a better bag never makes the value of a metric worse. -/
def ImprovingNeverHurts : Prop := ∀ metric ∈ (metrics : List (MetricSpec ℚ)), ∀ statistic,
  singleNumber.lookup metric.name = some statistic →
    ∀ (runs : List (BagRunResult ℚ)) (i : ℕ) (run run' : BagRunResult ℚ) (stats stats' : TrajectoryStats ℚ) (x x' : ℚ),
      runs[i]? = some run → run.stats? = some stats → run'.stats? = some stats' →
        Better metric.direction statistic stats stats' x x' →
          ¬ Improves metric.direction (aggregateMetric metric (runs.set i run')).1 (aggregateMetric metric runs).1

section Monotonicity

variable {K : Type} [Field K] [LinearOrder K] {metric : MetricSpec K} {statistic : Statistic} {stats stats' : TrajectoryStats K}
  {x x' : K}

theorem orElse_of_ne {default : K} (h : x ≠ 0) : orElse (some x) default = x := if_neg h

theorem orElse_zero : orElse (some x) 0 = x := by
  by_cases h : x = 0
  · rw [h]
    exact if_pos rfl
  · exact orElse_of_ne h

/-- What a statistic contributes to a metric that reads it alone. -/
def Statistic.contribution (statistic : Statistic) (x : K) : K :=
  if statistic.ZeroIsMissing then orElse (some x) 1 else x

theorem contribution_eq (h : ¬ statistic.ZeroIsMissing ∨ x ≠ 0) : statistic.contribution x = x := by
  unfold Statistic.contribution
  split
  · rename_i hZero
    exact orElse_of_ne (h.resolve_left (not_not.mpr hZero))
  · rfl

theorem contribution_zero (hZero : statistic.ZeroIsMissing) : statistic.contribution (0 : K) = 1 := by
  rw [Statistic.contribution, if_pos hZero]
  exact if_pos rfl

theorem reads_single_number (hMetric : metric ∈ metrics) (hReads : singleNumber.lookup metric.name = some statistic) :
    (∀ stats x, statistic.read stats = some x → metric.extract stats = statistic.contribution x) ∧
      (statistic.ZeroIsMissing → metric.direction = .minimize) := by
  simp only [metrics, List.mem_cons, List.not_mem_nil, or_false] at hMetric
  rcases hMetric with rfl | rfl | rfl | rfl | rfl | rfl | rfl | rfl | rfl | rfl | rfl
  all_goals simp only [driftMetric, singleNumber, List.lookup_cons, List.lookup_nil, String.reduceBEq, Option.some.injEq, reduceCtorEq] at hReads
  all_goals subst hReads
  all_goals simp +contextual [driftMetric, Statistic.read, Statistic.contribution, Statistic.ZeroIsMissing,
    Tuner.driftPerPath, orElse_zero]

omit [Field K] in
theorem not_between_of_improves {direction : Direction} (h : Improves direction x x') (t : K) : ¬ Between direction x x' t := by
  cases direction with
  | minimize => exact fun hBetween => (hBetween.1.trans_lt hBetween.2).not_gt h
  | maximize => exact fun hBetween => (hBetween.1.trans_lt hBetween.2).not_gt h

variable {runs : List (BagRunResult K)} {i : ℕ} {run run' : BagRunResult K}

theorem value_eq (hMetric : metric ∈ metrics) (hReads : singleNumber.lookup metric.name = some statistic)
    (hStats : run.stats? = some stats) (hx : statistic.read stats = some x) :
    metric.value run = statistic.contribution x := by
  rw [MetricSpec.value, hStats, Option.elim_some]
  exact (reads_single_number hMetric hReads).1 stats x hx

variable [IsStrictOrderedRing K] [FloorSemiring K]

theorem worsens_set_iff (hRun : runs[i]? = some run) (other : BagRunResult K) :
    Improves metric.direction (aggregateMetric metric (runs.set i other)).1 (aggregateMetric metric runs).1 ↔
      ∃ pick ∈ (metric.aggregator.picks runs.length : List (ℕ × K)), ∃ t,
        Between metric.direction (metric.value run) (metric.value other) t ∧
          countLe ((runs.eraseIdx i).map metric.value) t = pick.1 := by
  obtain ⟨hi, rfl⟩ := List.getElem?_eq_some_iff.mp hRun
  have hOther : (runs.set i other)[i]? = some other := by simp [hi]
  have hBack : (runs.set i other).set i runs[i] = runs := by simp
  have h : Improves metric.direction _ (aggregateMetric metric ((runs.set i other).set i runs[i])).1 ↔ _ :=
    improves_set_iff hOther runs[i]
  rwa [hBack, List.length_set, List.eraseIdx_set_eq] at h

/-- A better number leaves the value of a metric as good exactly when it is not a zero that counts as
missing, or no rank moves that the aggregator reads. -/
theorem improving_never_hurts_iff (hMetric : metric ∈ metrics) (hReads : singleNumber.lookup metric.name = some statistic)
    (hRun : runs[i]? = some run) (hStats : run.stats? = some stats) (hStats' : run'.stats? = some stats')
    (hBetter : Better metric.direction statistic stats stats' x x') :
    ¬ Improves metric.direction (aggregateMetric metric (runs.set i run')).1 (aggregateMetric metric runs).1 ↔
      ¬ statistic.ZeroIsMissing ∨ x' ≠ 0 ∨ DefaultUnread metric runs i x := by
  have hMinimize := (reads_single_number hMetric hReads).2
  have hImproves := hBetter.improves
  have hPositive : statistic.ZeroIsMissing → 0 < x := by
    intro hZero
    rw [hMinimize hZero] at hImproves
    exact hBetter.newNonneg.trans_lt hImproves
  have hOld : statistic.contribution x = x :=
    contribution_eq ((em' statistic.ZeroIsMissing).imp_right fun hZero => (hPositive hZero).ne')
  rw [worsens_set_iff hRun, value_eq hMetric hReads hStats hBetter.old, value_eq hMetric hReads hStats' hBetter.new, hOld]
  by_cases hMissing : statistic.ZeroIsMissing ∧ x' = 0
  · obtain ⟨hZero, rfl⟩ := hMissing
    rw [contribution_zero hZero, hMinimize hZero]
    simp only [hZero, not_true, ne_eq, false_or, DefaultUnread, Between]
    constructor
    · intro hNone pick hPick t hLow hHigh hCount
      exact hNone ⟨pick, hPick, t, ⟨hLow, hHigh⟩, hCount⟩
    · rintro hUnread ⟨pick, hPick, t, ⟨hLow, hHigh⟩, hCount⟩
      exact hUnread pick hPick t hLow hHigh hCount
  · have hKept : ¬ statistic.ZeroIsMissing ∨ x' ≠ 0 := not_and_or.mp hMissing
    rw [contribution_eq hKept]
    constructor
    · intro _
      exact hKept.imp_right .inl
    · rintro _ ⟨_, _, t, hBetween, _⟩
      exact not_between_of_improves hImproves t hBetween

end Monotonicity

def ratioMetric : MetricSpec ℚ :=
  { name := "drift_per_path", direction := .minimize, extract := driftPerPath, failValue := 1 }

/-- A walk whose drift is recorded as another fraction of the path. -/
def ratioWalk (ratio : ℚ) : TrajectoryStats ℚ := { walk 2 with driftPerPath := some ratio }

theorem ratioWalk_better {ratio : ℚ} (h0 : 0 ≤ ratio) (h1 : ratio < 1 / 50) :
    Better .minimize .driftPerPath (ratioWalk (1 / 50)) (ratioWalk ratio) (1 / 50) ratio where
  others := rfl
  old := rfl
  new := rfl
  oldNonneg := by norm_num
  newNonneg := h0
  improves := h1

theorem improving_never_hurts_iff_halved_ratio :
    ¬ Improves .minimize (aggregateMetric ratioMetric [successful (ratioWalk (1 / 100))]).1
      (aggregateMetric ratioMetric [successful (ratioWalk (1 / 50))]).1 :=
  have hMetric : ratioMetric ∈ metrics := List.mem_cons_of_mem _ List.mem_cons_self
  have hRun : [successful (ratioWalk (1 / 50))][0]? = some (successful (ratioWalk (1 / 50))) := rfl
  (improving_never_hurts_iff hMetric rfl hRun rfl rfl (ratioWalk_better (by norm_num) (by norm_num))).mpr
    (.inr (.inl (by norm_num)))

theorem improvingNeverHurts_closed_loop : ¬ ImprovingNeverHurts := by
  intro hClaim
  have hMetric : ratioMetric ∈ metrics := List.mem_cons_of_mem _ List.mem_cons_self
  have h := hClaim ratioMetric hMetric .driftPerPath rfl [successful (ratioWalk (1 / 50))] 0 _
    (successful (ratioWalk 0)) _ _ _ _ rfl rfl rfl (ratioWalk_better le_rfl (by norm_num))
  exact h (by decide +kernel)

end RoveMapping.Tuner
