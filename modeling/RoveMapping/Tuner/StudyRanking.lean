import RoveMapping.Tuner.StudyAnalysis

/-! # How the report ranks a trial

The optimizer puts 1 in place of a bag that was not scored, the report leaves the bag out. With one
repetition the recorded drifts are the same, so the optimizer aggregates those of the report
continued by ones: the report never ranks a trial by more than was recorded.
-/
namespace RoveMapping.Tuner.StudyAnalysis
open OrderStatistics
set_option autoImplicit false

/-- Every bag was scored, or the ranks of the drifts that are read have one value with and without
the bags that were not. -/
def FailuresUnread (runs : List (BagRunResult ℚ)) (q : ℚ) : Prop :=
  (scoredDrifts runs).length = runs.length ∨
    ranked 1 (scoredDrifts runs) ⌊q * ((scoredDrifts runs).length - 1 : ℕ)⌋₊ =
      ranked 1 (scoredDrifts runs) ⌈q * (runs.length - 1 : ℕ)⌉₊

structure ScoredAgree (minBags : ℤ) (study : Study) : Prop where
  listed : ∀ trial ∈ study.trials, ∀ runs ∈ trial.reps,
    (gatherTrials study.directory).countP (fun entry => entry.num = (trial.number : ℤ)) =
      if scoredDrifts runs = [] then 0 else 1
  only : ∀ entry ∈ gatherTrials study.directory, ∃ trial ∈ study.trials, entry.num = trial.number
  value : ∀ trial ∈ study.trials, ∀ runs ∈ trial.reps, ∀ entry ∈ eligible minBags (gatherTrials study.directory),
    entry.num = trial.number → ∀ agg ∈ counterparts, ∃ recorded, trial.recorded agg.2.2 = some recorded ∧
      aggregate agg.1 entry.drifts = aggregate agg.1 (scoredDrifts runs) ∧ aggregate agg.1 entry.drifts ≤ recorded ∧
        (aggregate agg.1 entry.drifts = recorded ↔ FailuresUnread runs agg.2.1)

def Study.NoZeroDrift (study : Study) : Prop :=
  ∀ trial ∈ study.trials, ∀ runs ∈ trial.reps, ∀ drift ∈ scoredDrifts runs, drift ≠ 0

section Values

/-- The metrics of the `drift_per_path` family. -/
def ratioSpec (name : String) (aggregator : Aggregator) : MetricSpec ℚ where
  name := name
  direction := .minimize
  extract := driftPerPath
  failValue := 1
  aggregator := aggregator

variable {runs : List (BagRunResult ℚ)} {agg : Aggregator × ℚ × String}

theorem scored_drift {run : BagRunResult ℚ} (h : Scored run) {stats : TrajectoryStats ℚ} (hStats : run.stats? = some stats) :
    ∃ drift, stats.driftPerPath = some drift ∧ drift ≤ 1 := by
  obtain ⟨score, hMetrics, hSuccess, hSame⟩ : ∃ score, run.metrics = some score ∧ score.success = true ∧
      score.stats = some stats := by
    unfold BagRunResult.stats? at hStats
    split at hStats
    · rename_i score hMetrics
      split at hStats
      · rename_i hBoth
        exact ⟨score, hMetrics, hBoth.2, hStats⟩
      · cases hStats
    · cases hStats
  obtain ⟨other, hOther, hProducible, hMoves⟩ := h.stats score hMetrics hSuccess
  cases hSame.symm.trans hOther
  have hPath : (3 / 10 : ℚ) ≤ stats.pathLengthM := hMoves
  refine ⟨stats.driftM / stats.pathLengthM, ?_, ?_⟩
  · rw [hProducible.driftPerPath, if_pos (lt_of_lt_of_le (by norm_num) hPath)]
  · exact div_le_one_of_le₀ hProducible.driftLePath (by linarith)

theorem scoredDrifts_le_one (hScored : ∀ run ∈ runs, Scored run) : ∀ drift ∈ scoredDrifts runs, drift ≤ 1 := by
  intro drift hDrift
  obtain ⟨run, hRun, hBind⟩ := List.mem_filterMap.mp hDrift
  obtain ⟨stats, hStats, hRatio⟩ := Option.bind_eq_some_iff.mp hBind
  obtain ⟨other, hOther, hLe⟩ := scored_drift (hScored run hRun) hStats
  cases hRatio.symm.trans hOther
  exact hLe

/-- The optimizer's values: the recorded drifts, and 1 for each bag that was not scored. -/
theorem values_perm (hScored : ∀ run ∈ runs, Scored run) (hZero : ∀ drift ∈ scoredDrifts runs, drift ≠ 0)
    (name : String) (aggregator : Aggregator) : (scoredDrifts runs).length ≤ runs.length ∧
      (runs.map (ratioSpec name aggregator).value).Perm
        (scoredDrifts runs ++ List.replicate (runs.length - (scoredDrifts runs).length) 1) := by
  induction runs with
  | nil => exact ⟨le_rfl, .refl _⟩
  | cons run rest ih =>
    have hRest : ∀ drift ∈ scoredDrifts rest, drift ∈ scoredDrifts (run :: rest) := by
      intro drift hDrift
      obtain ⟨other, hOther, hBind⟩ := List.mem_filterMap.mp hDrift
      exact List.mem_filterMap.mpr ⟨other, List.mem_cons_of_mem _ hOther, hBind⟩
    obtain ⟨hLength, hPerm⟩ := ih (fun other hOther => hScored other (List.mem_cons_of_mem _ hOther))
      fun drift hDrift => hZero drift (hRest drift hDrift)
    cases hStats : run.stats? with
    | none =>
      have hDrifts : scoredDrifts (run :: rest) = scoredDrifts rest := by simp [scoredDrifts, hStats]
      have hValue : (ratioSpec name aggregator).value run = 1 := by
        rw [MetricSpec.value, hStats]
        rfl
      have hCount : (run :: rest).length - (scoredDrifts rest).length = rest.length - (scoredDrifts rest).length + 1 := by
        rw [List.length_cons]
        omega
      rw [hDrifts, List.map_cons, hValue, hCount, List.replicate_succ]
      refine ⟨hLength.trans (Nat.le_succ _), ?_⟩
      exact (hPerm.cons 1).trans List.perm_middle.symm
    | some stats =>
      obtain ⟨drift, hDrift, _⟩ := scored_drift (hScored run List.mem_cons_self) hStats
      have hDrifts : scoredDrifts (run :: rest) = drift :: scoredDrifts rest := by simp [scoredDrifts, hStats, hDrift]
      have hNonzero : drift ≠ 0 := hZero drift (by rw [hDrifts]; exact List.mem_cons_self)
      have hValue : (ratioSpec name aggregator).value run = drift := by
        rw [MetricSpec.value, hStats, Option.elim_some]
        exact (congrArg (orElse · 1) hDrift).trans (if_neg hNonzero)
      rw [hDrifts, List.map_cons, hValue, List.length_cons, List.length_cons, Nat.add_sub_add_right, List.cons_append]
      exact ⟨Nat.succ_le_succ hLength, hPerm.cons drift⟩

theorem aggregate_counterpart (hAgg : agg ∈ counterparts) {values : List ℚ} (h : values ≠ []) :
    aggregate agg.1 values = quantile values agg.2.1 := by
  simp only [counterparts, List.mem_cons, List.not_mem_nil, or_false] at hAgg
  rcases hAgg with rfl | rfl | rfl | rfl
  · exact (quantile_half h).symm
  · rfl
  · rfl
  · exact (quantile_one h).symm

theorem counterpart_mem (hAgg : agg ∈ counterparts) : 0 < agg.2.1 ∧ agg.2.1 ≤ 1 := by
  simp only [counterparts, List.mem_cons, List.not_mem_nil, or_false] at hAgg
  rcases hAgg with rfl | rfl | rfl | rfl
  all_goals norm_num

theorem recorded_single {trial : StudyTrial} (hReps : trial.reps = [runs]) (hAgg : agg ∈ counterparts) :
    trial.recorded agg.2.2 = some (aggregateMetric (ratioSpec agg.2.2 agg.1) runs).1 := by
  simp only [counterparts, List.mem_cons, List.not_mem_nil, or_false] at hAgg
  rw [StudyTrial.recorded, hReps]
  rcases hAgg with rfl | rfl | rfl | rfl
  all_goals simp [DomainPool.allValues, metrics, driftMetric, List.lookup_cons, median, ranked, sorted, ratioSpec]

/-- The comparison of one aggregator: the report's drifts against the optimizer's values. -/
theorem compare_aggregates (hScored : ∀ run ∈ runs, Scored run) (hZero : ∀ drift ∈ scoredDrifts runs, drift ≠ 0)
    (hSome : scoredDrifts runs ≠ []) (hAgg : agg ∈ counterparts) :
    aggregate agg.1 (scoredDrifts runs) ≤ (aggregateMetric (ratioSpec agg.2.2 agg.1) runs).1 ∧
      (aggregate agg.1 (scoredDrifts runs) = (aggregateMetric (ratioSpec agg.2.2 agg.1) runs).1 ↔
        FailuresUnread runs agg.2.1) := by
  obtain ⟨hPos, hLe⟩ := counterpart_mem hAgg
  obtain ⟨hLength, hPerm⟩ := values_perm hScored hZero agg.2.2 agg.1
  have hTop := scoredDrifts_le_one hScored
  have hPadded : scoredDrifts runs ++ List.replicate (runs.length - (scoredDrifts runs).length) 1 ≠ [] :=
    List.append_ne_nil_of_left_ne_nil hSome _
  have hValues : runs.map (ratioSpec agg.2.2 agg.1).value ≠ [] := ne_nil_of_length hPadded hPerm.length_eq.symm
  have hRecorded : (aggregateMetric (ratioSpec agg.2.2 agg.1) runs).1 =
      quantile (scoredDrifts runs ++ List.replicate (runs.length - (scoredDrifts runs).length) 1) agg.2.1 := by
    have hFirst : (aggregateMetric (ratioSpec agg.2.2 agg.1) runs).1 = aggregate agg.1 (runs.map (ratioSpec agg.2.2 agg.1).value) :=
      if_neg hValues
    rw [hFirst, aggregate_counterpart hAgg hValues]
    exact quantile_perm hPadded hPerm.symm hPos.le hLe
  have hCount : (scoredDrifts runs).length + (runs.length - (scoredDrifts runs).length) = runs.length :=
    Nat.add_sub_cancel' hLength
  have hNone : runs.length - (scoredDrifts runs).length = 0 ↔ (scoredDrifts runs).length = runs.length := by omega
  rw [hRecorded, aggregate_counterpart hAgg hSome]
  constructor
  · exact quantile_le_padded hSome hTop hPos.le hLe
  · rw [quantile_eq_padded_iff hSome hTop hPos hLe, hCount, hNone]
    rfl

end Values

section Study

variable {study : Study}

theorem reps_single (hReps : study.nReps = 1) {trial : StudyTrial} (hTrial : trial ∈ study.trials)
    {runs : List (BagRunResult ℚ)} (hRuns : runs ∈ trial.reps) : trial.reps = [runs] := by
  have hLength : trial.reps.length = 1 := (study.reps trial hTrial).trans hReps
  obtain ⟨only, hOnly⟩ := List.length_eq_one_iff.mp hLength
  rw [hOnly] at hRuns ⊢
  rw [List.mem_singleton.mp hRuns]

/-- What is ranked under the number of a trial are the drifts of its bags that were scored. -/
theorem drifts_perm (hReps : study.nReps = 1) (hOwn : OwnDirectories study.bags) {minBags : ℤ} {entry : Eligible}
    (hEntry : entry ∈ eligible minBags (gatherTrials study.directory)) {trial : StudyTrial} (hTrial : trial ∈ study.trials)
    {runs : List (BagRunResult ℚ)} (hRuns : runs ∈ trial.reps) (hNum : entry.num = trial.number) :
    scoredDrifts runs ≠ [] ∧ (scoredDrifts runs).Perm entry.drifts := by
  obtain ⟨gathered, hGathered, rfl⟩ := List.mem_map.mp hEntry
  obtain ⟨other, hOther, otherRuns, hOtherRuns, hOtherNum, hSome, hPerm⟩ :=
    mem_gatherTrials hOwn (List.mem_of_mem_filter hGathered)
  have hNumbers : other.number = trial.number := by exact_mod_cast hOtherNum.symm.trans hNum
  obtain rfl : other = trial := List.inj_on_of_nodup_map study.numbers hOther hTrial hNumbers
  rw [reps_single hReps hTrial hRuns] at hOtherRuns
  rw [List.mem_singleton.mp hOtherRuns] at hSome hPerm
  exact ⟨hSome, hPerm.symm⟩

/-- With one repetition a trial is listed once if a bag was scored, and ranked by the bags that were:
by no more than was recorded, and by less exactly when a rank moves that is read. -/
theorem ranked_by_scored_bags (minBags : ℤ) (hReps : study.nReps = 1) (hOwn : OwnDirectories study.bags)
    (hZero : study.NoZeroDrift) : ScoredAgree minBags study where
  listed trial hTrial runs hRuns := by
    rw [listed_count hOwn hTrial, reps_single hReps hTrial hRuns]
    by_cases hNone : scoredDrifts runs = []
    · simp [hNone]
    · simp [hNone]
  only entry hEntry := by
    obtain ⟨trial, hTrial, _, _, hNum, _⟩ := mem_gatherTrials hOwn hEntry
    exact ⟨trial, hTrial, hNum⟩
  value trial hTrial runs hRuns entry hEntry hNum agg hAgg := by
    obtain ⟨hSome, hPerm⟩ := drifts_perm hReps hOwn hEntry hTrial hRuns hNum
    obtain ⟨hPos, hLe⟩ := counterpart_mem hAgg
    have hDrifts : entry.drifts ≠ [] := ne_nil_of_length hSome hPerm.length_eq
    have hValue : aggregate agg.1 entry.drifts = aggregate agg.1 (scoredDrifts runs) := by
      rw [aggregate_counterpart hAgg hSome, aggregate_counterpart hAgg hDrifts]
      exact quantile_perm hSome hPerm hPos.le hLe
    have hCompare := compare_aggregates (study.scored trial hTrial runs hRuns) (hZero trial hTrial runs hRuns) hSome hAgg
    rw [hValue]
    exact ⟨_, recorded_single (reps_single hReps hTrial hRuns) hAgg, rfl, hCompare.1, hCompare.2⟩

end Study

/-! ## A study in which a bag fails -/

def sixBags : List String := ["/bags/a", "/bags/b", "/bags/c", "/bags/d", "/bags/e", "/bags/f"]

/-- Five bags drift by a fiftieth of the path, the last one is lost. -/
def fiveScored : List (BagRunResult ℚ) :=
  (sixBags.take 5).map (fun bag => { successful (walk 2) with bagPath := bag }) ++ [{ lost with bagPath := "/bags/f" }]

theorem fiveScored_scored : ∀ run ∈ fiveScored, Scored run := by
  intro run hRun
  rcases List.mem_append.mp hRun with hWalk | hLost
  · obtain ⟨bag, _, rfl⟩ := List.mem_map.mp hWalk
    constructor
    · intro _
      rfl
    · rintro score ⟨⟩ _
      exact ⟨walk 2, rfl, walk_producible (by norm_num) (by norm_num), by norm_num [walk, TrialRunner.minPathLengthM]⟩
  · rw [List.mem_singleton.mp hLost]
    constructor
    · intro hMetrics
      cases hMetrics
    · rintro score ⟨⟩

def oneTrial : Study where
  bags := sixBags
  nReps := 1
  trials := [⟨0, [fiveScored]⟩]
  repsPos := Nat.one_pos
  reps := by
    intro trial hTrial
    rw [List.mem_singleton.mp hTrial]
    rfl
  runs := by
    intro trial hTrial runs hRuns
    rw [List.mem_singleton.mp hTrial] at hRuns
    rw [List.mem_singleton.mp hRuns]
    rfl
  scored := by
    intro trial hTrial runs hRuns
    rw [List.mem_singleton.mp hTrial] at hRuns
    rw [List.mem_singleton.mp hRuns]
    exact fiveScored_scored
  numbers := List.nodup_singleton 0

theorem scoredDrifts_fiveScored : scoredDrifts fiveScored = List.replicate 5 (1 / 50) := by decide +kernel

theorem ranked_by_scored_bags_one_failed : ScoredAgree 5 oneTrial := by
  have hOwn : OwnDirectories oneTrial.bags := ⟨by decide +kernel, by decide +kernel⟩
  refine ranked_by_scored_bags 5 rfl hOwn ?_
  intro trial hTrial runs hRuns drift hDrift
  rw [List.mem_singleton.mp hTrial] at hRuns
  rw [List.mem_singleton.mp hRuns, scoredDrifts_fiveScored] at hDrift
  rw [List.eq_of_mem_replicate hDrift]
  norm_num

theorem pathsAgree_one_failed : ¬ ∀ minBags study, PathsAgree minBags study := by
  intro hClaim
  have hListed : (⟨0, 5, List.replicate 5 (1 / 50)⟩ : Eligible) ∈ eligible 5 (gatherTrials oneTrial.directory) := by
    decide +kernel
  have hMax : (.max, 1, "max_drift_per_path") ∈ counterparts := by simp [counterparts]
  have h := (hClaim 5 oneTrial).sameValue _ List.mem_cons_self _ hListed rfl _ hMax
  exact absurd h (by decide +kernel)

end RoveMapping.Tuner.StudyAnalysis
