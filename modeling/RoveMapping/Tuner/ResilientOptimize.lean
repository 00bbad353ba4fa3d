import Mathlib.Data.List.Count
import Mathlib.Algebra.Order.Group.Int
import RoveMapping.Library.Patience

/-! # Optimising through crashes

`_resilient_optimize` and its call in `run_study`. What `study.optimize` does to the trials and how it ends
is up to it, within what it promises.
-/
namespace RoveMapping.Tuner
set_option autoImplicit false

inductive TrialState where
  | RUNNING
  | COMPLETE
  | PRUNED
  | FAIL
  | WAITING
deriving DecidableEq, Repr

/-- The exceptions that the loop catches. -/
inductive OptimizeError where
  | valueError
  | updateFinishedTrialError
deriving DecidableEq, Repr

structure Optimized where
  trials : List TrialState
  error : Option OptimizeError

/-- What the study does at the `i`-th call: `optimize` from the trials and `n_trials`, and whether the state of a trial
can be set afterwards. -/
structure Study where
  optimize : ℕ → List TrialState → ℕ → Optimized
  canSet : ℕ → ℕ → Bool

def completed (trials : List TrialState) : ℕ := trials.count .COMPLETE

/-- A call turns at most `n_trials` trials complete, and complete trials stay so. -/
def Study.Lawful (study : Study) : Prop := ∀ i trials k,
  (∀ t : ℕ, trials[t]? = some .COMPLETE → (study.optimize i trials k).trials[t]? = some .COMPLETE) ∧
    completed (study.optimize i trials k).trials ≤ completed trials + k

/-- Marks the running trials; those whose state cannot be set keep it. -/
def markRunning (canSet : ℕ → Bool) (trials : List TrialState) : List TrialState :=
  trials.mapIdx fun t state => if state = .RUNNING ∧ canSet t then .FAIL else state

structure Attempt where
  before : List TrialState
  after : List TrialState
  cleaned : List TrialState
  error : Option OptimizeError

inductive Ending where
  | returned
  | targetReached
  | raised (exc : OptimizeError)
deriving DecidableEq, Repr

/-- The calls of `study.optimize`, the last one first. -/
structure Optimization where
  trials : List TrialState
  calls : List Attempt
  ending : Ending

def optimizeLoop (study : Study) (maxConsecutiveCrashes : ℕ) (targetCompleted : ℤ) :
    ℕ → List Attempt → ℕ → List TrialState → Option Optimization
  | 0, _, _, _ => none
  | fuel + 1, calls, consecutiveNoProgress, trials =>
    let completedNow := completed trials
    let remaining := targetCompleted - completedNow
    if remaining ≤ 0 then some ⟨trials, calls, .targetReached⟩
    else
      let result := study.optimize calls.length trials remaining.toNat
      match result.error with
      | none => some ⟨result.trials, ⟨trials, result.trials, result.trials, none⟩ :: calls, .returned⟩
      | some exc =>
        let cleaned := markRunning (study.canSet calls.length) result.trials
        let calls := ⟨trials, result.trials, cleaned, some exc⟩ :: calls
        let progressed := completed cleaned > completedNow
        let consecutiveNoProgress := if progressed then 0 else consecutiveNoProgress + 1
        if consecutiveNoProgress ≥ maxConsecutiveCrashes then some ⟨cleaned, calls, .raised exc⟩
        else optimizeLoop study maxConsecutiveCrashes targetCompleted fuel calls consecutiveNoProgress cleaned

def resilientOptimize (study : Study) (maxConsecutiveCrashes : ℕ) (nTrials : ℤ) (fuel : ℕ) (trials : List TrialState) :
    Option Optimization :=
  optimizeLoop study maxConsecutiveCrashes (completed trials + nTrials) fuel [] 0 trials

/-- The end of `run_study`; the states of stale trials are set before the first call. -/
def runStudy (study : Study) (canSetStale : ℕ → Bool) (nTrials : ℤ) (fuel : ℕ) (trials : List TrialState) :
    Option Optimization :=
  resilientOptimize study 5 nTrials fuel (markRunning canSetStale trials)

/-! ## One call -/

theorem completed_markRunning (canSet : ℕ → Bool) (trials : List TrialState) :
    completed (markRunning canSet trials) = completed trials := by
  induction trials generalizing canSet with
  | nil => rfl
  | cons state trials ih =>
    have hTail := ih fun t => canSet (t + 1)
    rw [completed, completed, markRunning] at hTail
    rw [completed, completed, markRunning, List.mapIdx_cons, List.count_cons, List.count_cons, hTail]
    cases state <;> simp
    split <;> simp

theorem completed_le {trials after : List TrialState}
    (hKept : ∀ t : ℕ, trials[t]? = some .COMPLETE → after[t]? = some .COMPLETE) : completed trials ≤ completed after := by
  induction trials generalizing after with
  | nil => exact Nat.zero_le _
  | cons state trials ih =>
    cases after with
    | nil =>
      have hNone : ∀ t : ℕ, (state :: trials)[t]? ≠ some .COMPLETE := fun t ht => nomatch hKept t ht
      have hAbsent : TrialState.COMPLETE ∉ state :: trials := fun hMem => by
        obtain ⟨t, ht⟩ := List.mem_iff_getElem?.mp hMem
        exact hNone t ht
      rw [completed, List.count_eq_zero.mpr hAbsent]
      exact Nat.zero_le _
    | cons state' after =>
      have hTail : completed trials ≤ completed after := ih fun t ht => hKept (t + 1) ht
      have hHead : state = .COMPLETE → state' = .COMPLETE := by simpa using hKept 0
      simp only [completed, List.count_cons, beq_iff_eq] at hTail ⊢
      by_cases hState : state = .COMPLETE
      · rw [if_pos hState, if_pos (hHead hState)]
        omega
      · rw [if_neg hState]
        omega

section Round

variable {study : Study} {m fuel waited : ℕ} {target : ℤ} {calls : List Attempt} {trials : List TrialState}

def remaining (target : ℤ) (trials : List TrialState) : ℕ := (target - completed trials).toNat

def call (study : Study) (target : ℤ) (calls : List Attempt) (trials : List TrialState) : Optimized :=
  study.optimize calls.length trials (remaining target trials)

def cleaned (study : Study) (target : ℤ) (calls : List Attempt) (trials : List TrialState) : List TrialState :=
  markRunning (study.canSet calls.length) (call study target calls trials).trials

def attempt (study : Study) (target : ℤ) (calls : List Attempt) (trials : List TrialState) (exc : OptimizeError) : Attempt :=
  ⟨trials, (call study target calls trials).trials, cleaned study target calls trials, some exc⟩

theorem optimizeLoop_reached (hReached : target ≤ completed trials) :
    optimizeLoop study m target (fuel + 1) calls waited trials = some ⟨trials, calls, .targetReached⟩ := by
  rw [optimizeLoop]
  exact if_pos (by omega)

theorem optimizeLoop_returned (hOpen : completed trials < target) (hCall : (call study target calls trials).error = none) :
    optimizeLoop study m target (fuel + 1) calls waited trials = some ⟨(call study target calls trials).trials,
      ⟨trials, (call study target calls trials).trials, (call study target calls trials).trials, none⟩ :: calls, .returned⟩ := by
  have hRemaining : ¬ target - completed trials ≤ 0 := by omega
  rw [call, remaining] at hCall ⊢
  simp only [optimizeLoop, if_neg hRemaining, hCall]

theorem optimizeLoop_crashed (hOpen : completed trials < target) {exc : OptimizeError}
    (hCall : (call study target calls trials).error = some exc) :
    optimizeLoop study m target (fuel + 1) calls waited trials =
      let waited := if completed (cleaned study target calls trials) > completed trials then 0 else waited + 1
      if waited ≥ m then
        some ⟨cleaned study target calls trials, attempt study target calls trials exc :: calls, .raised exc⟩
      else optimizeLoop study m target fuel (attempt study target calls trials exc :: calls) waited
        (cleaned study target calls trials) := by
  have hRemaining : ¬ target - completed trials ≤ 0 := by omega
  simp only [call, remaining] at hCall
  simp only [optimizeLoop, if_neg hRemaining, hCall, attempt, cleaned, call, remaining]
  rfl

theorem completed_call (hLawful : study.Lawful) (hOpen : completed trials < target) :
    completed trials ≤ completed (call study target calls trials).trials ∧
      completed (call study target calls trials).trials ≤ target := by
  obtain ⟨hKept, hMost⟩ := hLawful calls.length trials (remaining target trials)
  constructor
  · exact completed_le hKept
  · unfold call
    unfold remaining at hMost ⊢
    omega

@[simp] theorem completed_cleaned : completed (cleaned study target calls trials) = completed (call study target calls trials).trials :=
  completed_markRunning _ _

end Round

/-! ## Whole runs -/

def Attempt.Fruitless (attempt : Attempt) : Prop :=
  attempt.error.isSome ∧ completed attempt.cleaned = completed attempt.before

def Attempt.states (attempt : Attempt) : List (List TrialState) := [attempt.before, attempt.after, attempt.cleaned]

def Optimization.states (run : Optimization) : List (List TrialState) := run.trials :: run.calls.flatMap Attempt.states

def EndsWell (m : ℕ) (target : ℤ) (run : Optimization) : Prop :=
  match run.ending with
  | .returned => ∃ last older, run.calls = last :: older ∧ last.error = none
  | .targetReached => target ≤ completed run.trials
  | .raised exc => ∃ recent older, run.calls = recent ++ older ∧ recent.length = m ∧
      (∀ attempt ∈ recent, attempt.Fruitless) ∧ recent.head?.bind Attempt.error = some exc

structure WithinBudget (m : ℕ) (target : ℤ) (mostCalls : ℕ) (mostCompleted : ℤ) (run : Optimization) : Prop where
  calls : run.calls.length ≤ mostCalls
  completed : ∀ trials ∈ run.states, (completed trials : ℤ) ≤ mostCompleted
  ending : EndsWell m target run

/-- What holds between two rounds: the calls so far stayed within bounds, and the last `waited` of them were fruitless. -/
structure Underway (m : ℕ) (mostCompleted : ℤ) (calls : List Attempt) (waited : ℕ) (trials : List TrialState) : Prop where
  waited_lt : waited < m
  recent : ∃ recent older, calls = recent ++ older ∧ recent.length = waited ∧ ∀ attempt ∈ recent, attempt.Fruitless
  bounded : ∀ seen ∈ trials :: calls.flatMap Attempt.states, (completed seen : ℤ) ≤ mostCompleted

section Runs

variable {study : Study} {m waited : ℕ} {target mostCompleted : ℤ} {calls : List Attempt} {trials : List TrialState}

theorem call_bounded (hLawful : study.Lawful) (hUnderway : Underway m mostCompleted calls waited trials)
    (hTarget : target ≤ mostCompleted) (hOpen : completed trials < target) (last : Attempt)
    (hBefore : last.before = trials) (hAfter : last.after = (call study target calls trials).trials)
    (hCleaned : completed last.cleaned = completed last.after) :
    ∀ seen ∈ last.cleaned :: (last :: calls).flatMap Attempt.states, (completed seen : ℤ) ≤ mostCompleted := by
  have hCall := (completed_call hLawful hOpen : _ ≤ completed (call study target calls trials).trials ∧ _).2
  rw [← hAfter] at hCall
  have hBounded := hUnderway.bounded
  simp only [List.forall_mem_cons, List.flatMap_cons, List.forall_mem_append, Attempt.states, hCleaned, hBefore] at hBounded ⊢
  refine ⟨by omega, ⟨hBounded.1, by omega, by omega, nofun⟩, hBounded.2⟩

theorem Underway.recent_cons (hUnderway : Underway m mostCompleted calls waited trials) (hLawful : study.Lawful)
    (hOpen : completed trials < target) (exc : OptimizeError)
    (hProgress : ¬completed (cleaned study target calls trials) > completed trials) :
    ∃ recent older, attempt study target calls trials exc :: calls = recent ++ older ∧ recent.length = waited + 1 ∧
      (∀ attempt ∈ recent, attempt.Fruitless) ∧ recent.head?.bind Attempt.error = some exc := by
  obtain ⟨recent, older, hCalls, hLength, hFruitless⟩ := hUnderway.recent
  have hFirst : (attempt study target calls trials exc).Fruitless := by
    have hCall := (completed_call hLawful hOpen : _ ≤ completed (call study target calls trials).trials ∧ _).1
    rw [← completed_cleaned] at hCall
    exact ⟨rfl, le_antisymm (not_lt.mp hProgress) hCall⟩
  refine ⟨attempt study target calls trials exc :: recent, older, by rw [hCalls]; rfl, by rw [List.length_cons, hLength], ?_, rfl⟩
  exact List.forall_mem_cons.mpr ⟨hFirst, hFruitless⟩

theorem Underway.crash (hUnderway : Underway m mostCompleted calls waited trials) (hLawful : study.Lawful)
    (hTarget : target ≤ mostCompleted) (hOpen : completed trials < target) (exc : OptimizeError) {waited' : ℕ}
    (hWaited : waited' = if completed (cleaned study target calls trials) > completed trials then 0 else waited + 1)
    (hPatient : waited' < m) :
    Underway m mostCompleted (attempt study target calls trials exc :: calls) waited' (cleaned study target calls trials) := by
  constructor
  · exact hPatient
  · by_cases hProgress : completed (cleaned study target calls trials) > completed trials
    · rw [if_pos hProgress] at hWaited
      exact ⟨[], _, rfl, hWaited.symm, nofun⟩
    · rw [if_neg hProgress] at hWaited
      obtain ⟨recent, older, hCalls, hLength, hFruitless, -⟩ := hUnderway.recent_cons hLawful hOpen exc hProgress
      exact ⟨recent, older, hCalls, hLength.trans hWaited.symm, hFruitless⟩
  · exact call_bounded hLawful hUnderway hTarget hOpen (attempt study target calls trials exc) rfl rfl completed_cleaned

/-- A crash that does not end the loop uses up budget, with or without progress. -/
theorem budget_crash (hLawful : study.Lawful) (hPatient : waited < m) (hOpen : completed trials < target) {waited' : ℕ}
    (hWaited : waited' = if completed (cleaned study target calls trials) > completed trials then 0 else waited + 1) :
    Patience.budget m (remaining target (cleaned study target calls trials)) waited' + 1 ≤
      Patience.budget m (remaining target trials) waited := by
  by_cases hProgress : completed (cleaned study target calls trials) > completed trials
  · rw [if_pos hProgress] at hWaited
    rw [hWaited]
    refine Patience.budget_progress hPatient ?_
    unfold remaining
    omega
  · rw [if_neg hProgress] at hWaited
    have hSame : remaining target (cleaned study target calls trials) = remaining target trials := by
      have hCall := (completed_call hLawful hOpen : _ ≤ completed (call study target calls trials).trials ∧ _).1
      rw [← completed_cleaned] at hCall
      unfold remaining
      omega
    rw [hWaited, hSame]
    refine Patience.budget_wait hPatient ?_
    unfold remaining
    omega

theorem within_returned (hLawful : study.Lawful) (hTarget : target ≤ mostCompleted)
    (hUnderway : Underway m mostCompleted calls waited trials) (hOpen : completed trials < target) {budget : ℕ}
    (hPositive : 0 < budget) :
    WithinBudget m target (calls.length + budget) mostCompleted ⟨(call study target calls trials).trials,
      ⟨trials, (call study target calls trials).trials, (call study target calls trials).trials, none⟩ :: calls, .returned⟩ := by
  constructor
  · rw [List.length_cons]
    omega
  · exact call_bounded hLawful hUnderway hTarget hOpen ⟨trials, _, _, none⟩ rfl rfl rfl
  · exact ⟨_, _, rfl, rfl⟩

theorem within_raised (hLawful : study.Lawful) (hTarget : target ≤ mostCompleted)
    (hUnderway : Underway m mostCompleted calls waited trials) (hOpen : completed trials < target) {budget : ℕ}
    (hPositive : 0 < budget) (exc : OptimizeError) (hProgress : ¬completed (cleaned study target calls trials) > completed trials)
    (hLost : waited + 1 = m) :
    WithinBudget m target (calls.length + budget) mostCompleted
      ⟨cleaned study target calls trials, attempt study target calls trials exc :: calls, .raised exc⟩ := by
  obtain ⟨recent, older, hSplit, hLength, hRecent⟩ := hUnderway.recent_cons hLawful hOpen exc hProgress
  constructor
  · rw [List.length_cons]
    omega
  · exact call_bounded hLawful hUnderway hTarget hOpen (attempt study target calls trials exc) rfl rfl completed_cleaned
  · exact ⟨recent, older, hSplit, hLength.trans hLost, hRecent⟩

/-- From any round on, the loop ends within its budget of calls. -/
theorem optimizeLoop_ends (hLawful : study.Lawful) (hTarget : target ≤ mostCompleted)
    (hUnderway : Underway m mostCompleted calls waited trials) :
    ∃ run, (∀ fuel, Patience.budget m (remaining target trials) waited ≤ fuel →
        optimizeLoop study m target (fuel + 1) calls waited trials = some run) ∧
      WithinBudget m target (calls.length + Patience.budget m (remaining target trials) waited) mostCompleted run := by
  induction hBudget : Patience.budget m (remaining target trials) waited using Nat.strong_induction_on
    generalizing calls waited trials with
  | _ budget ih =>
    by_cases hReached : target ≤ completed trials
    · exact ⟨⟨trials, calls, .targetReached⟩, fun fuel _ => optimizeLoop_reached hReached, Nat.le_add_right _ _,
        hUnderway.bounded, hReached⟩
    have hOpen : completed trials < target := not_le.mp hReached
    have hPositive : 0 < budget := by
      rw [← hBudget]
      refine Patience.budget_pos hUnderway.waited_lt ?_
      unfold remaining
      omega
    cases hCall : (call study target calls trials).error with
    | none =>
      exact ⟨_, fun fuel _ => optimizeLoop_returned hOpen hCall, within_returned hLawful hTarget hUnderway hOpen hPositive⟩
    | some exc =>
      obtain ⟨waited', hWaited⟩ : ∃ waited', waited' =
        if completed (cleaned study target calls trials) > completed trials then 0 else waited + 1 := ⟨_, rfl⟩
      have hStep : ∀ fuel, optimizeLoop study m target (fuel + 1) calls waited trials = _ :=
        fun fuel => optimizeLoop_crashed hOpen hCall
      simp only [← hWaited] at hStep
      by_cases hPatient : waited' < m
      · have hSpent := budget_crash hLawful hUnderway.waited_lt hOpen hWaited
        rw [hBudget] at hSpent
        obtain ⟨run, hRun, hWithin⟩ := ih _ (by omega) (hUnderway.crash hLawful hTarget hOpen exc hWaited hPatient) rfl
        refine ⟨run, fun fuel hFuel => ?_, ?_⟩
        · obtain ⟨fuel, rfl⟩ : ∃ less, fuel = less + 1 := ⟨fuel - 1, by omega⟩
          rw [hStep, if_neg (not_le.mpr hPatient)]
          exact hRun fuel (by omega)
        · have hCalls := hWithin.calls
          rw [List.length_cons] at hCalls
          exact ⟨by omega, hWithin.completed, hWithin.ending⟩
      · have hLt := hUnderway.waited_lt
        have hProgress : ¬completed (cleaned study target calls trials) > completed trials := by
          intro hProgress
          rw [if_pos hProgress] at hWaited
          omega
        rw [if_neg hProgress] at hWaited
        have hLost : waited + 1 = m := by omega
        refine ⟨_, fun fuel _ => ?_, within_raised hLawful hTarget hUnderway hOpen hPositive exc hProgress hLost⟩
        rw [hStep, if_pos (not_lt.mp hPatient)]

end Runs

theorem resilientOptimize_from {study : Study} (hLawful : study.Lawful) {m : ℕ} (hPatience : 1 ≤ m) (nTrials : ℤ)
    {trials : List TrialState} {initial : ℕ} (hInitial : completed trials = initial) :
    ∃ run, (∀ fuel, m * nTrials.toNat < fuel → resilientOptimize study m nTrials fuel trials = some run) ∧
      WithinBudget m (initial + nTrials) (m * nTrials.toNat) (initial + max nTrials 0) run := by
  subst hInitial
  have hStart : Underway m (completed trials + max nTrials 0) [] 0 trials := by
    constructor
    · exact hPatience
    · exact ⟨[], [], rfl, rfl, nofun⟩
    · simp
  obtain ⟨run, hRun, hWithin⟩ := optimizeLoop_ends hLawful (add_le_add_right (le_max_left nTrials 0) _) hStart
  have hLeft : remaining (completed trials + nTrials) trials = nTrials.toNat := by
    unfold remaining
    omega
  rw [hLeft, Patience.budget_start] at hRun hWithin
  rw [List.length_nil, Nat.zero_add] at hWithin
  refine ⟨run, fun fuel hFuel => ?_, hWithin⟩
  obtain ⟨fuel, rfl⟩ : ∃ less, fuel = less + 1 := ⟨fuel - 1, by omega⟩
  exact hRun fuel (by omega)

/-- `run_study` counts the trials that were complete before it marked the stale ones. -/
theorem runStudy_ends {study : Study} (hLawful : study.Lawful) (canSetStale : ℕ → Bool) (nTrials : ℤ)
    (trials : List TrialState) :
    ∃ run, (∀ fuel, 5 * nTrials.toNat < fuel → runStudy study canSetStale nTrials fuel trials = some run) ∧
      WithinBudget 5 (completed trials + nTrials) (5 * nTrials.toNat) (completed trials + max nTrials 0) run :=
  resilientOptimize_from hLawful (by decide) nTrials (completed_markRunning canSetStale trials)

/-- The loop ends within its budget, whatever the calls do. -/
theorem resilientOptimize_within_budget (study : Study) (hLawful : study.Lawful) (m : ℕ) (hPatience : 1 ≤ m) (nTrials : ℤ)
    (trials : List TrialState) :
    ∃ run, (∀ fuel, m * nTrials.toNat < fuel → resilientOptimize study m nTrials fuel trials = some run) ∧
      WithinBudget m (completed trials + nTrials) (m * nTrials.toNat) (completed trials + max nTrials 0) run :=
  resilientOptimize_from hLawful hPatience nTrials rfl

/-- A study whose first call loses a race after it started a trial; from then on all trials complete. -/
def racyStudy : Study where
  optimize := fun i trials k => if i = 0 then ⟨trials ++ [.RUNNING], some .updateFinishedTrialError⟩
    else ⟨trials ++ List.replicate k .COMPLETE, none⟩
  canSet := fun _ _ => true

theorem lawful_append {new : ℕ → ℕ → List TrialState} {error : ℕ → Option OptimizeError} {canSet : ℕ → ℕ → Bool}
    (hNew : ∀ i k, completed (new i k) ≤ k) : Study.Lawful ⟨fun i trials k => ⟨trials ++ new i k, error i⟩, canSet⟩ := by
  intro i trials k
  constructor
  · intro t hComplete
    obtain ⟨hLt, -⟩ := List.getElem?_eq_some_iff.mp hComplete
    rw [← hComplete]
    exact List.getElem?_append_left hLt
  · rw [completed, List.count_append]
    exact Nat.add_le_add_left (hNew i k) _

theorem racyStudy_lawful : racyStudy.Lawful := by
  have hEq : racyStudy = ⟨fun i trials k => ⟨trials ++ (if i = 0 then [.RUNNING] else List.replicate k .COMPLETE),
      if i = 0 then some .updateFinishedTrialError else none⟩, fun _ _ => true⟩ := by
    simp only [racyStudy, Study.mk.injEq, and_true]
    funext i trials k
    split <;> rfl
  rw [hEq]
  refine lawful_append fun i k => ?_
  split
  · exact Nat.zero_le k
  · simp [completed]

theorem resilientOptimize_within_budget_racy :
    ∃ run, (∀ fuel, 5 * (2 : ℤ).toNat < fuel → resilientOptimize racyStudy 5 2 fuel [.COMPLETE, .FAIL] = some run) ∧
      WithinBudget 5 (completed [.COMPLETE, .FAIL] + 2) (5 * (2 : ℤ).toNat) (completed [.COMPLETE, .FAIL] + max 2 0) run :=
  resilientOptimize_within_budget racyStudy racyStudy_lawful 5 (by decide) 2 [.COMPLETE, .FAIL]

/-- With a negative `n_trials` nothing is called, and the trials that were complete are more than that number allows. -/
theorem resilientOptimize_exceeds_negative :
    ¬∀ (study : Study), study.Lawful → ∀ m : ℕ, 1 ≤ m → ∀ (nTrials : ℤ) (trials : List TrialState),
      ∃ run, (∀ fuel, m * nTrials.toNat < fuel → resilientOptimize study m nTrials fuel trials = some run) ∧
        WithinBudget m (completed trials + nTrials) (m * nTrials.toNat) (completed trials + nTrials) run := by
  intro hAlways
  obtain ⟨run, hRun, hWithin⟩ := hAlways racyStudy racyStudy_lawful 5 (by decide) (-1) [.COMPLETE]
  have hReached : resilientOptimize racyStudy 5 (-1) 1 [.COMPLETE] = some ⟨[.COMPLETE], [], .targetReached⟩ := rfl
  have hSame : run = ⟨[.COMPLETE], [], .targetReached⟩ := Option.some.inj ((hRun 1 (by decide)).symm.trans hReached)
  have hMany := hWithin.completed [.COMPLETE] (by simp [hSame, Optimization.states])
  exact absurd hMany (by decide)

end RoveMapping.Tuner
