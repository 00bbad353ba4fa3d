import RoveMapping.Library.PythonInt
import RoveMapping.Tuner.AggregatorLaws
import RoveMapping.Tuner.BagNames
import RoveMapping.Tuner.DomainPool
import RoveMapping.Tuner.FailurePenalty
import RoveMapping.Tuner.TrialRecords

/-! # The analysis of a study directory

`analyze_per_bag` reads `metrics.json` of each bag under each directory of a trial. What a study
leaves on disk comes from the results that the optimizer aggregates: a directory for each
repetition of a trial, with one for each bag.
-/
namespace RoveMapping.Tuner.StudyAnalysis
open OrderStatistics
set_option autoImplicit false

/-! ## The analysis -/

/-- A directory of a bag, with its `metrics.json` if it has one. -/
structure BagEntry where
  name : String
  metrics : Option (ScoreResult ℚ)

structure TrialEntry where
  name : String
  bags : List BagEntry

structure GatheredTrial where
  num : ℤ
  bagDrifts : List (String × ℚ)
  deriving DecidableEq

/-- `int(name.split('_')[1])` of a name that begins with `trial_`. -/
def trialNumber (name : String) : Option ℤ :=
  if "trial_".toList.isPrefixOf name.toList then PythonInt.parse ((name.toList.drop 6).takeWhile (· ≠ '_')) else none

def bagDrift (entry : BagEntry) : Option (String × ℚ) := do
  let score ← entry.metrics
  if score.success then
    let stats ← score.stats
    let drift ← stats.driftPerPath
    return (entry.name, drift)
  else none

def gatherTrial (child : TrialEntry) : Option GatheredTrial := do
  let num ← trialNumber child.name
  let bagDrifts := (child.bags.insertionSort fun a b => a.name ≤ b.name).filterMap bagDrift
  if bagDrifts = [] then none else return ⟨num, bagDrifts⟩

def gatherTrials (studyDir : List TrialEntry) : List GatheredTrial :=
  (studyDir.insertionSort fun a b => a.name ≤ b.name).filterMap gatherTrial

/-- A trial that is ranked. -/
structure Eligible where
  num : ℤ
  nBags : ℕ
  drifts : List ℚ
  deriving DecidableEq

def eligible (minBagsForRank : ℤ) (trials : List GatheredTrial) : List Eligible :=
  (trials.filter fun t => minBagsForRank ≤ t.bagDrifts.length).map fun t =>
    ⟨t.num, t.bagDrifts.length, t.bagDrifts.map (·.2)⟩

/-- The aggregators of the report. -/
def aggFns : List Aggregator := [.median, .q75, .q90, .max]

def topFive (aggregator : Aggregator) (trials : List Eligible) : List Eligible :=
  (trials.insertionSort fun a b => aggregate aggregator a.drifts ≤ aggregate aggregator b.drifts).take 5

/-! ## What the optimizer leaves on disk -/

/-- What the runner returns for a bag. Statistics come from a scored run that moves. -/
structure Scored (run : BagRunResult ℚ) : Prop where
  ran : run.metrics.isSome → run.success
  stats : ∀ score ∈ run.metrics, score.success → ∃ stats, score.stats = some stats ∧ Producible stats ∧
    TrialRunner.minPathLengthM ≤ stats.pathLengthM

theorem scored_of_reported {bag : String} {run : BagRunResult ℚ} (h : TrialRunner.Reported bag run)
    (hProducible : ∀ score ∈ run.metrics, ∀ stats ∈ score.stats, Producible stats) : Scored run where
  ran := h.ran
  stats score hScore hSuccess := by
    obtain ⟨stats, hStats, hMoves⟩ := h.moves score hScore hSuccess
    exact ⟨stats, hStats, hProducible score hScore stats hStats, hMoves⟩

structure StudyTrial where
  number : ℕ
  reps : List (List (BagRunResult ℚ))

structure Study where
  bags : List String
  nReps : ℕ
  trials : List StudyTrial
  repsPos : 0 < nReps
  reps : ∀ trial ∈ trials, trial.reps.length = nReps
  runs : ∀ trial ∈ trials, ∀ runs ∈ trial.reps, runs.map (·.bagPath) = bags
  scored : ∀ trial ∈ trials, ∀ runs ∈ trial.reps, ∀ run ∈ runs, Scored run
  numbers : (trials.map (·.number)).Nodup

/-- `metrics.json` of a directory: the last one that was written there. -/
def metricsIn (runs : List (String × BagRunResult ℚ)) (name : String) : Option (ScoreResult ℚ) :=
  (runs.filterMap fun entry => if entry.1 = name then entry.2.metrics else none).getLast?

/-- The names that lead elsewhere, and those of the files of a trial. -/
def taken : List String := ["", ".", "..", "params.json", "env.json", "trial.json"]

/-- The directories of the bags that are inside the one of the trial. -/
def bagEntries (runs : List (BagRunResult ℚ)) : List BagEntry :=
  let names := TrialRunner.assignNames [] (runs.map (·.bagPath))
  (names.filter (· ∉ taken)).dedup.map fun name => ⟨name, metricsIn (names.zip runs) name⟩

def Study.directory (study : Study) : List TrialEntry :=
  study.trials.flatMap fun trial => trial.reps.zipIdx.map fun pair =>
    ⟨DomainPool.trialId study.nReps trial.number pair.2, bagEntries pair.1⟩

/-- The metrics of the optimizer that the aggregators of the report stand for, with the quantile
that each of them is. -/
def counterparts : List (Aggregator × ℚ × String) := [
  (.median, 1 / 2, "drift_per_path"), (.q75, 3 / 4, "q75_drift_per_path"),
  (.q90, 9 / 10, "q90_drift_per_path"), (.max, 1, "max_drift_per_path")]

/-- `all_metric_aggregates` of a trial. -/
def StudyTrial.recorded (trial : StudyTrial) (name : String) : Option ℚ := (DomainPool.allValues trial.reps).lookup name

structure PathsAgree (minBags : ℤ) (study : Study) : Prop where
  listedOnce : ∀ trial ∈ study.trials, (gatherTrials study.directory).countP (fun entry => entry.num = (trial.number : ℤ)) = 1
  sameValue : ∀ trial ∈ study.trials, ∀ entry ∈ eligible minBags (gatherTrials study.directory), entry.num = trial.number →
    ∀ agg ∈ counterparts, trial.recorded agg.2.2 = some (aggregate agg.1 entry.drifts)

/-! ## What the analysis finds -/

/-- The drifts of the bags that were scored. -/
def scoredDrifts (runs : List (BagRunResult ℚ)) : List ℚ := runs.filterMap fun run => run.stats?.bind (·.driftPerPath)

/-- Each bag has a directory of its own inside the one of the trial. -/
structure OwnDirectories (bags : List String) : Prop where
  nodup : (TrialRunner.assignNames [] bags).Nodup
  inside : ∀ name ∈ TrialRunner.assignNames [] bags, name ∉ taken

section Directory

theorem underscore_not_mem_zeroPad (width n : ℕ) : '_' ∉ (Decimal.zeroPad width n).toList := by
  intro hMem
  simp only [Decimal.zeroPad, String.toList_append, String.toList_ofList, List.mem_append, Nat.toString_eq_repr,
    Nat.toList_repr] at hMem
  rcases hMem with hZero | hDigit
  · exact absurd (List.eq_of_mem_replicate hZero) (by decide)
  · exact Nat.underscore_not_in_toDigits hDigit

theorem trialNumber_of_toList {name : String} {number : ℕ} {rest : List Char}
    (hName : name.toList = "trial_".toList ++ ((Decimal.zeroPad 4 number).toList ++ rest))
    (hRest : rest = [] ∨ ∃ more, rest = '_' :: more) : trialNumber name = some (number : ℤ) := by
  have hPrefix : "trial_".toList.isPrefixOf ("trial_".toList ++ ((Decimal.zeroPad 4 number).toList ++ rest)) := by simp
  have hDrop : ("trial_".toList ++ ((Decimal.zeroPad 4 number).toList ++ rest)).drop 6 =
      (Decimal.zeroPad 4 number).toList ++ rest := List.drop_left' (by decide)
  have hDigits : ∀ c ∈ (Decimal.zeroPad 4 number).toList, decide (c ≠ '_') = true := by
    intro c hc
    simp only [decide_eq_true_eq]
    rintro rfl
    exact underscore_not_mem_zeroPad 4 number hc
  have hEnd : rest.takeWhile (· ≠ '_') = [] := by
    rcases hRest with rfl | ⟨more, rfl⟩ <;> rfl
  rw [trialNumber, hName, if_pos hPrefix, hDrop, List.takeWhile_append_of_pos hDigits, hEnd, List.append_nil,
    PythonInt.parse_zeroPad]

theorem trialNumber_trialId (nReps number rep : ℕ) : trialNumber (DomainPool.trialId nReps number rep) = some (number : ℤ) := by
  unfold DomainPool.trialId
  dsimp only
  split
  · have hName : s!"trial_{Decimal.zeroPad 4 number}".toList =
        "trial_".toList ++ ((Decimal.zeroPad 4 number).toList ++ []) := by simp [toString]
    exact trialNumber_of_toList hName (.inl rfl)
  · have hName : ∀ base : String, base = s!"trial_{Decimal.zeroPad 4 number}" →
        s!"{base}_rep_{Decimal.zeroPad 2 rep}".toList = "trial_".toList ++
          ((Decimal.zeroPad 4 number).toList ++ '_' :: ("rep_".toList ++ (Decimal.zeroPad 2 rep).toList)) := by
      rintro base rfl
      simp [toString]
    exact trialNumber_of_toList (hName _ rfl) (.inr ⟨_, rfl⟩)

theorem metricsIn_of_nodup {runs : List (String × BagRunResult ℚ)} (hNodup : (runs.map (·.1)).Nodup)
    {entry : String × BagRunResult ℚ} (h : entry ∈ runs) : metricsIn runs entry.1 = entry.2.metrics := by
  have hOnly : runs.filterMap (fun other => if other.1 = entry.1 then other.2.metrics else none) = entry.2.metrics.toList := by
    induction runs with
    | nil => cases h
    | cons first rest ih =>
      obtain ⟨hFirst, hRest⟩ := List.nodup_cons.mp hNodup
      rcases List.mem_cons.mp h with rfl | hMem
      · have hNone : rest.filterMap (fun other => if other.1 = entry.1 then other.2.metrics else none) = [] := by
          rw [List.filterMap_eq_nil_iff]
          intro other hOther
          exact if_neg fun hEq => hFirst (List.mem_map.mpr ⟨other, hOther, hEq⟩)
        rw [List.filterMap_cons, hNone, if_pos rfl]
        cases entry.2.metrics <;> rfl
      · have hNe : first.1 ≠ entry.1 := fun hEq => hFirst (List.mem_map.mpr ⟨entry, hMem, hEq.symm⟩)
        rw [List.filterMap_cons, if_neg hNe]
        exact ih hRest hMem
  rw [metricsIn, hOnly]
  cases entry.2.metrics <;> rfl

variable {runs : List (BagRunResult ℚ)} {bags : List String}

theorem bagEntries_eq (hOwn : OwnDirectories bags) (hBags : runs.map (·.bagPath) = bags) :
    bagEntries runs = ((TrialRunner.assignNames [] bags).zip runs).map fun entry => ⟨entry.1, entry.2.metrics⟩ := by
  have hLength : (TrialRunner.assignNames [] bags).length = runs.length := by
    rw [TrialRunner.length_assignNames, ← hBags, List.length_map]
  have hInside : (TrialRunner.assignNames [] bags).filter (· ∉ taken) = TrialRunner.assignNames [] bags := by
    rw [List.filter_eq_self]
    intro name hName
    simpa using hOwn.inside name hName
  have hKeys : ((TrialRunner.assignNames [] bags).zip runs).map (·.1) = TrialRunner.assignNames [] bags :=
    List.map_fst_zip hLength.le
  simp only [bagEntries, hBags, hInside, hOwn.nodup.dedup]
  rw [← hKeys, List.map_map, hKeys]
  apply List.map_congr_left
  intro entry hEntry
  simp only [Function.comp_apply, BagEntry.mk.injEq, true_and]
  exact metricsIn_of_nodup (by rw [hKeys]; exact hOwn.nodup) hEntry

theorem bagDrift_eq {run : BagRunResult ℚ} (h : Scored run) (name : String) :
    bagDrift ⟨name, run.metrics⟩ = (run.stats?.bind (·.driftPerPath)).map fun drift => (name, drift) := by
  have hRan := h.ran
  unfold bagDrift BagRunResult.stats?
  cases hMetrics : run.metrics with
  | none => rfl
  | some score =>
    have hSuccess : run.success = true := hRan (by rw [hMetrics]; rfl)
    by_cases hScore : score.success = true
    · cases hStats : score.stats with
      | none => simp [hScore, hStats]
      | some stats =>
        cases hDrift : stats.driftPerPath <;> simp [hScore, hStats, hSuccess, hDrift]
    · simp [hScore]

theorem bagDrifts_perm (hOwn : OwnDirectories bags) (hBags : runs.map (·.bagPath) = bags) (hScored : ∀ run ∈ runs, Scored run) :
    ((((bagEntries runs).insertionSort fun a b => a.name ≤ b.name).filterMap bagDrift).map (·.2)).Perm (scoredDrifts runs) := by
  have hLength : runs.length ≤ (TrialRunner.assignNames [] bags).length := by
    rw [TrialRunner.length_assignNames, ← hBags, List.length_map]
  have hSorted := (((List.perm_insertionSort (fun a b : BagEntry => a.name ≤ b.name) (bagEntries runs)).filterMap bagDrift).map
    (·.2))
  have hUnsorted : ((bagEntries runs).filterMap bagDrift).map (·.2) = scoredDrifts runs := by
    rw [bagEntries_eq hOwn hBags, List.filterMap_map, List.map_filterMap, scoredDrifts]
    conv_rhs => rw [← List.map_snd_zip hLength, List.filterMap_map]
    apply List.filterMap_congr
    intro entry hEntry
    rw [Function.comp_apply, bagDrift_eq (hScored _ (List.of_mem_zip hEntry).2), Option.map_map]
    exact Option.map_id'
  rwa [hUnsorted] at hSorted

/-- A repetition is found exactly when a bag was scored, under the number of its trial. -/
theorem gatherTrial_rep (hOwn : OwnDirectories bags) (hBags : runs.map (·.bagPath) = bags)
    (hScored : ∀ run ∈ runs, Scored run) (nReps number rep : ℕ) :
    (scoredDrifts runs = [] → gatherTrial ⟨DomainPool.trialId nReps number rep, bagEntries runs⟩ = none) ∧
      (scoredDrifts runs ≠ [] → ∃ bagDrifts, gatherTrial ⟨DomainPool.trialId nReps number rep, bagEntries runs⟩ =
        some ⟨number, bagDrifts⟩ ∧ (bagDrifts.map (·.2)).Perm (scoredDrifts runs)) := by
  have hPerm := bagDrifts_perm hOwn hBags hScored
  have hGather : gatherTrial ⟨DomainPool.trialId nReps number rep, bagEntries runs⟩ =
      if ((bagEntries runs).insertionSort fun a b => a.name ≤ b.name).filterMap bagDrift = [] then none
      else some ⟨number, ((bagEntries runs).insertionSort fun a b => a.name ≤ b.name).filterMap bagDrift⟩ := by
    rw [gatherTrial, trialNumber_trialId]
    rfl
  rw [hGather]
  constructor
  · intro hNone
    rw [hNone, List.perm_nil, List.map_eq_nil_iff] at hPerm
    exact if_pos hPerm
  · intro hSome
    refine ⟨_, if_neg ?_, hPerm⟩
    intro hNil
    rw [hNil, List.map_nil] at hPerm
    exact hSome hPerm.nil_eq.symm

theorem gatherTrials_perm (children : List TrialEntry) : (gatherTrials children).Perm (children.filterMap gatherTrial) :=
  (List.perm_insertionSort _ children).filterMap gatherTrial

/-- A list of lists whose other members do not count. -/
theorem countP_flatMap_of_nodup {α β : Type} {key : α → ℕ} {items : List α} {part : α → List β} {p : β → Bool} {a : α}
    (hNodup : (items.map key).Nodup) (ha : a ∈ items) (hOthers : ∀ b ∈ items, key b ≠ key a → (part b).countP p = 0) :
    (items.flatMap part).countP p = (part a).countP p := by
  induction items with
  | nil => cases ha
  | cons first rest ih =>
    obtain ⟨hFirst, hRest⟩ := List.nodup_cons.mp hNodup
    rw [List.flatMap_cons, List.countP_append]
    rcases List.mem_cons.mp ha with rfl | hMem
    · have hZero : (rest.flatMap part).countP p = 0 := by
        rw [List.countP_flatMap, List.sum_eq_zero_iff]
        intro n hn
        obtain ⟨b, hb, rfl⟩ := List.mem_map.mp hn
        exact hOthers b (List.mem_cons_of_mem _ hb) fun hEq => hFirst (List.mem_map.mpr ⟨b, hb, hEq⟩)
      rw [hZero, Nat.add_zero]
    · have hNe : key first ≠ key a := fun hEq => hFirst (List.mem_map.mpr ⟨a, hMem, hEq.symm⟩)
      rw [hOthers first List.mem_cons_self hNe, Nat.zero_add]
      exact ih hRest hMem fun b hb => hOthers b (List.mem_cons_of_mem _ hb)

variable {study : Study}

theorem mem_gatherTrials (hOwn : OwnDirectories study.bags) {entry : GatheredTrial} (h : entry ∈ gatherTrials study.directory) :
    ∃ trial ∈ study.trials, ∃ runs ∈ trial.reps, entry.num = trial.number ∧ scoredDrifts runs ≠ [] ∧
      (entry.bagDrifts.map (·.2)).Perm (scoredDrifts runs) := by
  obtain ⟨child, hChild, hEntry⟩ := List.mem_filterMap.mp ((gatherTrials_perm study.directory).mem_iff.mp h)
  obtain ⟨trial, hTrial, hRep⟩ := List.mem_flatMap.mp hChild
  obtain ⟨⟨runs, rep⟩, hRuns, rfl⟩ := List.mem_map.mp hRep
  have hMem : runs ∈ trial.reps := List.fst_mem_of_mem_zipIdx hRuns
  obtain ⟨hNone, hSome⟩ := gatherTrial_rep hOwn (study.runs trial hTrial runs hMem) (study.scored trial hTrial runs hMem)
    study.nReps trial.number rep
  by_cases hScored : scoredDrifts runs = []
  · rw [hNone hScored] at hEntry
    cases hEntry
  · obtain ⟨bagDrifts, hGather, hPerm⟩ := hSome hScored
    rw [hGather] at hEntry
    cases hEntry
    exact ⟨trial, hTrial, runs, hMem, rfl, hScored, hPerm⟩

/-- A trial is listed once for each repetition in which a bag was scored. -/
theorem listed_count (hOwn : OwnDirectories study.bags) {trial : StudyTrial} (hTrial : trial ∈ study.trials) :
    (gatherTrials study.directory).countP (fun entry => entry.num = (trial.number : ℤ)) =
      trial.reps.countP fun runs => scoredDrifts runs ≠ [] := by
  have hRep : ∀ other ∈ study.trials, ∀ pair ∈ other.reps.zipIdx,
      ((gatherTrial ⟨DomainPool.trialId study.nReps other.number pair.2, bagEntries pair.1⟩).map fun entry : GatheredTrial =>
        decide (entry.num = (trial.number : ℤ))).getD false =
          (decide (scoredDrifts pair.1 ≠ []) && decide (other.number = trial.number)) := by
    intro other hOther pair hPair
    have hMem : pair.1 ∈ other.reps := List.fst_mem_of_mem_zipIdx hPair
    obtain ⟨hNone, hSome⟩ := gatherTrial_rep hOwn (study.runs other hOther _ hMem) (study.scored other hOther _ hMem)
      study.nReps other.number pair.2
    by_cases hScored : scoredDrifts pair.1 = []
    · simp [hNone hScored, hScored]
    · obtain ⟨bagDrifts, hGather, _⟩ := hSome hScored
      simp [hGather, hScored]
  have hPart : ∀ other ∈ study.trials, (other.reps.zipIdx.map fun pair =>
      (⟨DomainPool.trialId study.nReps other.number pair.2, bagEntries pair.1⟩ : TrialEntry)).countP (fun child =>
        ((gatherTrial child).map fun entry => decide (entry.num = (trial.number : ℤ))).getD false) =
      other.reps.countP fun runs => decide (scoredDrifts runs ≠ []) && decide (other.number = trial.number) := by
    intro other hOther
    rw [List.countP_map, List.countP_congr fun pair hPair => by rw [Function.comp_apply, hRep other hOther pair hPair]]
    conv_rhs => rw [← List.zipIdx_map_fst 0 other.reps, List.countP_map]
    rfl
  rw [(gatherTrials_perm _).countP_eq, List.countP_filterMap, Study.directory, countP_flatMap_of_nodup study.numbers hTrial]
  · rw [hPart trial hTrial]
    simp
  · intro other hOther hNe
    rw [hPart other hOther]
    simp [hNe]

end Directory
end RoveMapping.Tuner.StudyAnalysis
