import RoveMapping.Tuner.Metrics

/-! # What a failed bag costs

A successful bag is replaced by a failed one. The aggregated value improves exactly when the
bag's own value is worse than the constant of the metric and the aggregator reads a rank that the
change moves; the constants of four metrics are below what a successful bag may report.
-/
namespace RoveMapping.Tuner
open OrderStatistics
set_option autoImplicit false

section Statements

variable {K : Type} [Field K] [LinearOrder K]

def Improves (direction : Direction) (before after : K) : Prop :=
  match direction with
  | .minimize => after < before
  | .maximize => before < after

instance (direction : Direction) (before after : K) : Decidable (Improves direction before after) :=
  match direction with
  | .minimize => inferInstanceAs (Decidable (after < before))
  | .maximize => inferInstanceAs (Decidable (before < after))

structure Producible (stats : TrajectoryStats K) : Prop where
  driftNonneg : 0 ≤ stats.driftM
  driftLePath : stats.driftM ≤ stats.pathLengthM
  driftPerPath : stats.driftPerPath =
    if 1 / 10 ^ 6 < stats.pathLengthM then some (stats.driftM / stats.pathLengthM) else none
  ratioNonneg : ∀ x ∈ stats.meanIcpRatio, 0 ≤ x
  thicknessNonneg : ∀ x ∈ stats.mapThicknessM, 0 ≤ x
  extentNonneg : ∀ x ∈ stats.cloudSpatialExtentM, 0 ≤ x

/-- The metrics whose constant a successful bag may exceed, and the bags that do not. -/
def WithinPenalty (metric : MetricSpec K) (stats : TrajectoryStats K) : Prop :=
  if metric.name = "drift_m" ∨ metric.name = "max_drift_m" then stats.driftM ≤ (5 : ℕ)
  else if metric.name = "map_thickness_m" then orElse stats.mapThicknessM 1 ≤ 1
  else if metric.name = "drift_per_path_with_extent_penalty" then
    driftPerPath stats * (1 + extentPenalty stats) ≤ 1
  else True

def Between (direction : Direction) (better worse t : K) : Prop :=
  match direction with
  | .minimize => better ≤ t ∧ t < worse
  | .maximize => worse ≤ t ∧ t < better

variable [FloorSemiring K]

/-- No threshold between the constant and the bag's own value has as many of the other bags at or
below it as a rank that the aggregator reads. -/
def Unread (metric : MetricSpec K) (runs : List (BagRunResult K)) (i : ℕ) (stats : TrajectoryStats K) : Prop :=
  ∀ pick ∈ (metric.aggregator.picks runs.length : List (ℕ × K)), ∀ t,
    Between metric.direction metric.failValue (metric.extract stats) t →
      countLe ((runs.eraseIdx i).map metric.value) t ≠ pick.1

end Statements

/-- Over the rationals, a failed bag never improves the value of a metric. -/
def FailingNeverPays : Prop := ∀ metric ∈ (metrics : List (MetricSpec ℚ)), ∀ (runs : List (BagRunResult ℚ)),
  (∀ run ∈ runs, ∀ stats ∈ run.stats?, Producible stats) → ∀ (i : ℕ) (run bad : BagRunResult ℚ),
    runs[i]? = some run → run.stats?.isSome → bad.success = false →
      ¬ Improves metric.direction (aggregateMetric metric runs).1 (aggregateMetric metric (runs.set i bad)).1

def successful (stats : TrajectoryStats ℚ) : BagRunResult ℚ where
  bagPath := "/bags/loop"
  dbPath := some "/out/trial_0000/loop/rtabmap.db"
  success := true
  durationS := 60
  metrics := some { dbPath := "/out/trial_0000/loop/rtabmap.db", success := true, stats := some stats }

def lost : BagRunResult ℚ where
  bagPath := "/bags/loop"
  dbPath := none
  success := false
  durationS := 5
  failureReason := some "launch exited before bag started"

def walk (drift : ℚ) : TrajectoryStats ℚ where
  nPoses := 400
  durationS := 60
  pathLengthM := 100
  startXyz := [0, 0, 0]
  endXyz := [drift, 0, 0]
  driftM := drift
  driftPerPath := some (drift / 100)

theorem walk_producible {drift : ℚ} (h0 : 0 ≤ drift) (h1 : drift ≤ 100) : Producible (walk drift) where
  driftNonneg := h0
  driftLePath := h1
  driftPerPath := by norm_num [walk]
  ratioNonneg := by simp [walk]
  thicknessNonneg := by simp [walk]
  extentNonneg := by simp [walk]

section Penalty

variable {K : Type} [Field K] [LinearOrder K]

theorem orElse_nonneg {value : Option K} {default : K} (hDefault : 0 ≤ default) (h : ∀ x ∈ value, 0 ≤ x) :
    0 ≤ orElse value default := by
  cases value with
  | none => exact hDefault
  | some x =>
    simp only [orElse]
    split
    · exact hDefault
    · exact h x rfl

variable [IsStrictOrderedRing K]

theorem driftPerPath_le_one {stats : TrajectoryStats K} (h : Producible stats) : driftPerPath stats ≤ 1 := by
  unfold Tuner.driftPerPath
  rw [h.driftPerPath]
  split
  · simp only [orElse]
    split
    · exact le_rfl
    · exact div_le_one_of_le₀ h.driftLePath (h.driftNonneg.trans h.driftLePath)
  · exact le_rfl

variable [FloorSemiring K]

theorem aggregateMetric_eq_combine (metric : MetricSpec K) {runs : List (BagRunResult K)} (h : runs ≠ []) :
    (aggregateMetric metric runs).1 = combine (metric.aggregator.picks runs.length) (runs.map metric.value) := by
  have hValues : runs.map metric.value ≠ [] := by simpa using h
  simp only [aggregateMetric, if_neg hValues, aggregate_eq_combine _ hValues, List.length_map]

variable {metric : MetricSpec K} {runs : List (BagRunResult K)} {i : ℕ} {run bad : BagRunResult K}
  {stats : TrajectoryStats K}

/-- Another run in the place of one improves the value exactly when the aggregator reads a rank
between what the two contribute. -/
theorem improves_set_iff (hRun : runs[i]? = some run) (other : BagRunResult K) :
    Improves metric.direction (aggregateMetric metric runs).1 (aggregateMetric metric (runs.set i other)).1 ↔
      ∃ pick ∈ (metric.aggregator.picks runs.length : List (ℕ × K)), ∃ t,
        Between metric.direction (metric.value other) (metric.value run) t ∧
          countLe ((runs.eraseIdx i).map metric.value) t = pick.1 := by
  obtain ⟨hi, rfl⟩ := List.getElem?_eq_some_iff.mp hRun
  have hRuns : runs ≠ [] := List.ne_nil_of_length_pos (Nat.zero_lt_of_lt hi)
  have hOtherRuns : runs.set i other ≠ [] := by simpa using hRuns
  have hLength : i < (runs.map metric.value).length := by simpa using hi
  have hSound : Sound (metric.aggregator.picks runs.length : List (ℕ × K)) (runs.map metric.value).length := by
    rw [List.length_map]
    exact picks_sound _ (Nat.zero_lt_of_lt hi)
  rw [aggregateMetric_eq_combine metric hRuns, aggregateMetric_eq_combine metric hOtherRuns, List.map_set,
    List.length_set]
  unfold Between Improves
  cases metric.direction with
  | minimize =>
    dsimp only
    rw [combine_set_lt_iff hLength hSound, List.eraseIdx_map, List.getElem_map]
    simp only [and_assoc]
  | maximize =>
    dsimp only
    rw [combine_set_gt_iff hLength hSound, List.eraseIdx_map, List.getElem_map]
    simp only [and_assoc]

/-- The failed bag improves the value exactly when the aggregator reads a rank that moves. -/
theorem improves_iff_read (hRun : runs[i]? = some run) (hStats : run.stats? = some stats) (hBad : bad.stats? = none) :
    Improves metric.direction (aggregateMetric metric runs).1 (aggregateMetric metric (runs.set i bad)).1 ↔
      ¬ Unread metric runs i stats := by
  have hOld : metric.value run = metric.extract stats := by simp [MetricSpec.value, hStats]
  have hNew : metric.value bad = metric.failValue := by simp [MetricSpec.value, hBad]
  rw [improves_set_iff hRun, hOld, hNew]
  simp [Unread]

omit [IsStrictOrderedRing K] in
theorem unread_of_le (hDirection : metric.direction = .minimize) (h : metric.extract stats ≤ metric.failValue) :
    Unread metric runs i stats := by
  intro pick _ t hBetween
  rw [hDirection] at hBetween
  exact absurd (hBetween.1.trans_lt hBetween.2) h.not_gt

omit [IsStrictOrderedRing K] in
theorem unread_of_ge (hDirection : metric.direction = .maximize) (h : metric.failValue ≤ metric.extract stats) :
    Unread metric runs i stats := by
  intro pick _ t hBetween
  rw [hDirection] at hBetween
  exact absurd (hBetween.1.trans_lt hBetween.2) h.not_gt

theorem unread_of_withinPenalty (hMetric : metric ∈ metrics) (hStats : Producible stats)
    (h : WithinPenalty metric stats) : Unread metric runs i stats := by
  have hCount : ∀ x ∈ some (stats.loopClosureCount : K), 0 ≤ x := by
    rintro x ⟨⟩
    exact Nat.cast_nonneg _
  simp only [metrics, List.mem_cons, List.not_mem_nil, or_false] at hMetric
  rcases hMetric with rfl | rfl | rfl | rfl | rfl | rfl | rfl | rfl | rfl | rfl | rfl
  · exact unread_of_le rfl h
  · exact unread_of_le rfl (driftPerPath_le_one hStats)
  · exact unread_of_le rfl (driftPerPath_le_one hStats)
  · exact unread_of_le rfl h
  · exact unread_of_le rfl (driftPerPath_le_one hStats)
  · exact unread_of_le rfl (driftPerPath_le_one hStats)
  · exact unread_of_ge rfl (orElse_nonneg le_rfl hStats.ratioNonneg)
  · exact unread_of_ge rfl (orElse_nonneg le_rfl hCount)
  · exact unread_of_le rfl h
  · exact unread_of_ge rfl (orElse_nonneg le_rfl hStats.extentNonneg)
  · exact unread_of_le rfl h

/-- A bag without statistics improves nothing exactly when the one it replaces is within the penalty of
the metric or no rank moves that the aggregator reads. -/
theorem failing_never_pays_iff (hMetric : metric ∈ metrics) (hRun : runs[i]? = some run)
    (hStats : run.stats? = some stats) (hProducible : Producible stats) (hBad : bad.stats? = none) :
    ¬ Improves metric.direction (aggregateMetric metric runs).1 (aggregateMetric metric (runs.set i bad)).1 ↔
      WithinPenalty metric stats ∨ Unread metric runs i stats := by
  rw [improves_iff_read hRun hStats hBad, not_not]
  exact ⟨.inr, fun h => h.elim (unread_of_withinPenalty hMetric hProducible) id⟩

theorem failing_never_pays_iff_short_drift :
    ¬ Improves .minimize (aggregateMetric (driftMetric (K := ℚ)) [successful (walk 2)]).1
      (aggregateMetric driftMetric [lost]).1 :=
  have hRun : [successful (walk 2)][0]? = some (successful (walk 2)) := rfl
  have hWithin : WithinPenalty driftMetric (walk 2) := by norm_num [WithinPenalty, driftMetric, walk]
  (failing_never_pays_iff List.mem_cons_self hRun rfl (walk_producible (by norm_num) (by norm_num)) rfl).mpr
    (.inl hWithin)

theorem failingNeverPays_long_drift : ¬ FailingNeverPays := by
  intro hClaim
  have hProducible : ∀ run ∈ [successful (walk 6)], ∀ stats ∈ run.stats?, Producible stats := by
    intro run hRun stats hStats
    rw [List.mem_singleton.mp hRun] at hStats
    cases hStats
    exact walk_producible (by norm_num) (by norm_num)
  have h := hClaim driftMetric List.mem_cons_self _ hProducible 0 (successful (walk 6)) lost rfl rfl rfl
  exact h (by decide)

end Penalty
end RoveMapping.Tuner
