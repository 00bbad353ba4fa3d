import RoveMapping.Library.Decimal
import RoveMapping.Library.Machine
import RoveMapping.Library.TokenPool
import RoveMapping.Tuner.Metrics

/-! # ROS domain ids of parallel workers

`buildDomainPool` fills a queue with one id per worker; `objective` takes an id for each
repetition of a trial and puts it back whatever `run_trial` does. The workers run in any
interleaving; what the trial itself does is up to the environment.
-/
namespace RoveMapping.Tuner.DomainPool
open Resumption Decimal
set_option autoImplicit false

/-- An exception of any type, with its text. -/
structure Exc where
  text : String
  deriving DecidableEq, Repr

def reservedDomainIds : List ℕ := [0, 96]

/-- `xs[:n]`: a negative `n` drops from the end. -/
def sliceTo {α : Type} (values : List α) (n : ℤ) : List α := values.take (if 0 ≤ n then n else values.length + n).toNat

def buildDomainPool (nWorkers : ℤ) (exclude : List ℕ) : Except Exc (List ℕ) :=
  let candidates := (List.range' 1 99).filter fun d => d ∉ exclude
  if nWorkers > candidates.length then
    .error ⟨s!"n_workers={nWorkers} exceeds available domain IDs ({candidates.length} after exclusions)"⟩
  else .ok (sliceTo candidates nWorkers)

structure UserAttrs where
  allMetricAggregates : List (String × ℚ)
  perBag : List (List (String × List ℚ))
  nBagsSuccessful : List ℕ
  repAggregates : List (List (String × ℚ))
  deriving DecidableEq, Repr

inductive Op where
  | suggestParams
  | get
  | runTrial (trialId : String) (overrides : List (String × String)) (domainId : Option ℕ)
  | put (domainId : ℕ)
  | setUserAttrs (attrs : UserAttrs)

@[reducible] def Op.Ans : Op → Type
  | .suggestParams => List (String × String)
  | .get => ℕ
  | .runTrial _ _ _ => List (BagRunResult ℚ)
  | .put _ | .setUserAttrs _ => Unit

abbrev worker : Signature := ⟨Op, Op.Ans, Exc⟩

def ask (op : Op) : Program worker op.Ans := @Program.perform worker op

/-- One repetition; the id goes back in a `finally` block. -/
def runRep (pooled : Bool) (trialId : String) (overrides : List (String × String)) :
    Program worker (List (BagRunResult ℚ)) := do
  if pooled then
    let domainId ← ask .get
    (ask (.runTrial trialId overrides (some domainId))).tryFinally (ask (.put domainId))
  else
    ask (.runTrial trialId overrides none)

def runReps (pooled : Bool) (trialId : ℕ → String) (overrides : List (String × String)) :
    List ℕ → Program worker (List (List (BagRunResult ℚ)))
  | [] => return []
  | rep :: rest => do
    let runs ← runRep pooled (trialId rep) overrides
    let others ← runReps pooled trialId overrides rest
    return runs :: others

def aggregates (runs : List (BagRunResult ℚ)) : List (String × ℚ) :=
  metrics.map fun spec => (spec.name, (aggregateMetric spec runs).1)

def perBag (runs : List (BagRunResult ℚ)) : List (String × List ℚ) :=
  metrics.map fun spec => (spec.name, (aggregateMetric spec runs).2)

def allValues (reps : List (List (BagRunResult ℚ))) : List (String × ℚ) :=
  metrics.map fun spec => (spec.name, median (reps.map fun runs => (aggregateMetric spec runs).1))

def userAttrs (reps : List (List (BagRunResult ℚ))) : UserAttrs where
  allMetricAggregates := allValues reps
  perBag := reps.map perBag
  nBagsSuccessful := reps.map fun runs => runs.countP (·.success)
  repAggregates := if 1 < reps.length then reps.map aggregates else []

structure Study where
  pooled : Bool
  nRepsPerTrial : ℤ
  specs : List (MetricSpec ℚ)

def Study.nReps (study : Study) : ℕ := (max 1 study.nRepsPerTrial).toNat

def trialId (nReps number rep : ℕ) : String :=
  let baseId := s!"trial_{zeroPad 4 number}"
  if nReps = 1 then baseId else s!"{baseId}_rep_{zeroPad 2 rep}"

def objective (study : Study) (number : ℕ) : Program worker (List ℚ) := do
  let overrides ← ask .suggestParams
  let reps ← runReps study.pooled (trialId study.nReps number) overrides (List.range study.nReps)
  ask (.setUserAttrs (userAttrs reps))
  return study.specs.map fun spec => ((allValues reps).lookup spec.name).getD 0

structure Env where
  suggested : Except Exc (List (String × String))
  runs : Except Exc (List (BagRunResult ℚ))
  setUserAttrs : Option Exc

section Pool

variable {n : ℕ}

/-- The pool records who has taken which id; `get` blocks while the queue is empty. -/
abbrev World (n : ℕ) : Type := TokenPool (Fin n) ℕ

def sem : Semantics worker (Fin n) (World n) Env
  | i, .get, _, w => (w.take i).map fun (d, w') => (.ok d, w')
  | i, .put d, _, w => some (.ok (), w.give i d)
  | _, .suggestParams, env, w => some (env.suggested, w)
  | _, .runTrial _ _ _, env, w => some (env.runs, w)
  | _, .setUserAttrs _, env, w => some (env.setUserAttrs.elim (.ok ()) .error, w)

def machine (n : ℕ) (study : Study) : Machine worker (Fin n) (World n) Env ℕ Empty (List ℚ) :=
  ⟨sem, fun _ number => objective study number, fun event _ => event.elim⟩

abbrev Workers (n : ℕ) : Type := Pool worker (Fin n) (World n) (List ℚ)

def RunsUnder (workers : Workers n) (i : Fin n) (d : Option ℕ) : Prop :=
  ∃ trialId overrides, (workers.thread i).pending? = some (.runTrial trialId overrides d)

structure Start (ids : List ℕ) (workers : Workers n) : Prop where
  pooled : workers.shared = ⟨ids, fun _ => none⟩
  idle : ∀ i, (workers.thread i).outcome?.isSome

/-- What holds at every moment of a run. -/
structure Isolated (ids : List ℕ) (workers : Workers n) : Prop where
  distinct : ∀ i j d, RunsUnder workers i (some d) → RunsUnder workers j (some d) → i = j
  assigned : ∀ i, ¬ RunsUnder workers i none
  unreserved : ∀ i d, RunsUnder workers i (some d) → d ≠ 0 ∧ d ≠ 96
  inRange : ∀ d ∈ workers.shared.tokens, 1 ≤ d ∧ d ≤ 99
  conserved : workers.shared.tokens = (ids : Multiset ℕ)
  available : ∀ i, (workers.thread i).pending? = some .get → workers.shared.free ≠ []

/-- Tokens are never lost; a worker holds the id it runs under, and none when it asks for one. -/
def rules (n : ℕ) (ids : List ℕ) : Rules worker (Fin n) (World n) Env where
  inv w := w.tokens = (ids : Multiset ℕ)
  rely i w w' := w'.held i = w.held i
  demand i op w :=
    match op with
    | .get => w.held i = none
    | .runTrial _ _ d => ∃ id, d = some id ∧ w.held i = some id
    | .put id => w.held i = some id
    | .suggestParams | .setUserAttrs _ => True
  allowed _ _ _ _ := True
  refl _ _ := rfl
  trans _ _ _ _ hst htu := htu.trans hst

variable {ids : List ℕ} {i : Fin n}

theorem held_stable (token : Option ℕ) : (rules n ids).Stable i fun w => w.held i = token :=
  fun _ _ _ hRely hw => hRely.trans hw

theorem get_triple : Triple sem (rules n ids) i (fun w => w.held i = none) (ask .get)
    (Returns fun d w => w.held i = some d) := by
  apply Triple.perform (held_stable none)
  intro w hTokens hw
  refine ⟨hw, ?_⟩
  intro env answer w' _ hSem
  obtain ⟨⟨d, next⟩, hTake, hEq⟩ := Option.map_eq_some_iff.mp hSem
  cases hEq
  have hNext := (w.take_eq_some hTake).2
  refine ⟨⟨(TokenPool.tokens_take hw hTake).trans hTokens, fun j hj => ?_⟩, ?_⟩
  · change w'.held j = w.held j
    rw [hNext, Function.update_of_ne hj]
  · change w'.held i = some d
    rw [hNext, Function.update_self]

theorem put_triple (d : ℕ) : Triple sem (rules n ids) i (fun w => w.held i = some d) (ask (.put d))
    (Returns fun _ w => w.held i = none) := by
  apply Triple.perform (held_stable (some d))
  intro w hTokens hw
  refine ⟨hw, ?_⟩
  intro env answer w' _ hSem
  cases hSem
  refine ⟨⟨(TokenPool.tokens_give hw).trans hTokens, fun j hj => ?_⟩, ?_⟩
  · exact Function.update_of_ne hj _ _
  · exact Function.update_self _ _ _

theorem unpooled_triple {op : Op} {token : Option ℕ}
    (hDemand : ∀ w : World n, w.held i = token → (rules n ids).demand i op w)
    (hSem : ∀ env w result w', sem i op env w = some (result, w') → w' = w) :
    Triple sem (rules n ids) i (fun w => w.held i = token) (ask op) fun _ w => w.held i = token := by
  apply Triple.perform (held_stable token)
  intro w hTokens hw
  refine ⟨hDemand w hw, ?_⟩
  intro env result w' _ h
  cases hSem env w result w' h
  exact ⟨Rules.Guarantee.refl _ hTokens, hw⟩

theorem runTrial_triple (trialId : String) (overrides : List (String × String)) (d : ℕ) :
    Triple sem (rules n ids) i (fun w => w.held i = some d) (ask (.runTrial trialId overrides (some d)))
      fun _ w => w.held i = some d :=
  unpooled_triple (fun _ hw => ⟨d, rfl, hw⟩) fun _ _ _ _ h => by cases h; rfl

theorem runRep_triple (trialId : String) (overrides : List (String × String)) :
    Triple sem (rules n ids) i (fun w => w.held i = none) (runRep true trialId overrides) fun _ w => w.held i = none := by
  apply get_triple.bind_returns
  intro d
  -- whatever `run_trial` raised, the `finally` block puts the id back
  apply (runTrial_triple trialId overrides d).attempt.bind_returns
  intro outcome
  apply (put_triple d).bind_returns
  intro _
  exact Triple.ofExcept fun w _ hw => hw

theorem runReps_triple (trialId : ℕ → String) (overrides : List (String × String)) (reps : List ℕ) :
    Triple sem (rules n ids) i (fun w => w.held i = none) (runReps true trialId overrides reps)
      fun _ w => w.held i = none := by
  induction reps with
  | nil => exact Triple.pure fun w _ hw => hw
  | cons rep rest ih =>
    apply (runRep_triple (trialId rep) overrides).bind _ fun _ _ _ hw => hw
    intro runs
    exact ih.bind (fun others => Triple.pure fun w _ hw => hw) fun _ _ _ hw => hw

theorem objective_triple {study : Study} (hPooled : study.pooled = true) (number : ℕ) :
    Triple sem (rules n ids) i (fun w => w.held i = none) (objective study number) fun _ w => w.held i = none := by
  have hSuggest : Triple sem (rules n ids) i (fun w => w.held i = none) (ask .suggestParams) fun _ w => w.held i = none :=
    unpooled_triple (fun _ _ => trivial) fun _ _ _ _ h => by cases h; rfl
  apply hSuggest.bind _ fun _ _ _ hw => hw
  intro overrides
  rw [hPooled]
  apply (runReps_triple _ overrides _).bind _ fun _ _ _ hw => hw
  intro reps
  have hAttrs : Triple sem (rules n ids) i (fun w => w.held i = none) (ask (.setUserAttrs (userAttrs reps)))
      fun _ w => w.held i = none :=
    unpooled_triple (fun _ _ => trivial) fun _ _ _ _ h => by cases h; rfl
  apply hAttrs.bind _ fun _ _ _ hw => hw
  intro _
  exact Triple.pure fun w _ hw => hw

theorem buildDomainPool_ok {nWorkers : ℤ} (h : buildDomainPool nWorkers reservedDomainIds = .ok ids) :
    ids.Nodup ∧ (∀ d ∈ ids, 1 ≤ d ∧ d ≤ 99 ∧ d ∉ reservedDomainIds) ∧ nWorkers.toNat ≤ ids.length := by
  unfold buildDomainPool at h
  dsimp only at h
  split at h
  · cases h
  · rename_i hFits
    cases h
    have hSub := List.take_sublist
      (if 0 ≤ nWorkers then nWorkers else ((List.range' 1 99).filter fun d => d ∉ reservedDomainIds).length + nWorkers).toNat
      ((List.range' 1 99).filter fun d => d ∉ reservedDomainIds)
    refine ⟨hSub.nodup ((List.nodup_range' 1).filter _), ?_, ?_⟩
    · intro d hd
      obtain ⟨hRange, hFree⟩ := List.mem_filter.mp (hSub.subset hd)
      have hBounds := List.mem_range'_1.mp hRange
      exact ⟨by omega, by omega, by simpa using hFree⟩
    · rw [sliceTo, List.length_take]
      split <;> omega

variable {workers : Workers n}

theorem isolated_of_safe {study : Study} {post : Fin n → Except Exc (List ℚ) → World n → Prop}
    (hSafe : workers.Safe (machine n study) (rules n ids) post) (hNodup : ids.Nodup)
    (hIds : ∀ d ∈ ids, 1 ≤ d ∧ d ≤ 99 ∧ d ∉ reservedDomainIds) (hEnough : n ≤ ids.length) : Isolated ids workers := by
  have hTokens : workers.shared.tokens = (ids : Multiset ℕ) := hSafe.1
  have hDemand : ∀ {i op}, (workers.thread i).pending? = some op → (rules n ids).demand i op workers.shared := by
    intro i op hOp
    cases hThread : workers.thread i with
    | pure value => rw [hThread] at hOp; cases hOp
    | throw exc => rw [hThread] at hOp; cases hOp
    | request op' next =>
      rw [hThread] at hOp
      cases hOp
      exact hSafe.demand hThread
  have hHeld : ∀ {i d}, RunsUnder workers i (some d) → workers.shared.held i = some d := by
    rintro i d ⟨_, _, hOp⟩
    obtain ⟨_, hEq, hHeld⟩ := hDemand hOp
    cases hEq
    exact hHeld
  have hMem : ∀ d ∈ workers.shared.tokens, d ∈ ids := by simp [hTokens]
  constructor
  · intro i j d hi hj
    exact TokenPool.holder_unique (by rwa [hTokens]) (hHeld hi) (hHeld hj)
  · rintro i ⟨_, _, hOp⟩
    obtain ⟨_, hEq, _⟩ := hDemand hOp
    cases hEq
  · intro i d hi
    have hFree := (hIds d (hMem d (TokenPool.mem_tokens_of_held (hHeld hi)))).2.2
    simpa [reservedDomainIds] using hFree
  · intro d hd
    exact ⟨(hIds d (hMem d hd)).1, (hIds d (hMem d hd)).2.1⟩
  · exact hTokens
  · intro i hGet
    apply TokenPool.free_ne_nil _ (hDemand hGet)
    simpa [hTokens] using hEnough

end Pool

/-- Parallel workers are isolated at every moment of every run. -/
theorem isolated_of_reaches {nJobs : ℤ} {ids : List ℕ} {study : Study} {start workers : Workers nJobs.toNat}
    (hBuild : buildDomainPool nJobs reservedDomainIds = .ok ids) (hPooled : study.pooled = true)
    (hStart : Start ids start) (hRun : Reaches (machine _ study).next (fun _ _ => True) start workers) :
    Isolated ids workers := by
  obtain ⟨hNodup, hIds, hEnough⟩ := buildDomainPool_ok hBuild
  have hProof : (machine nJobs.toNat study).Proof (rules _ ids) (fun _ _ => True) fun i _ w => w.held i = none :=
    { stable := fun i _ => held_stable none
      allowed := fun _ _ _ _ _ _ _ => trivial
      start := fun workers i number r _ _ hTokens hw => objective_triple hPooled number workers.shared hTokens hw
      env := fun _ event => event.elim }
  have hSafe : start.Safe (machine _ study) (rules _ ids) fun i _ w => w.held i = none := by
    refine ⟨by simp [rules, hStart.pooled, TokenPool.tokens], ?_⟩
    intro i
    have hHeld : start.shared.held i = none := by rw [hStart.pooled]
    have hIdle := hStart.idle i
    cases h : start.thread i with
    | pure value => exact hHeld
    | throw exc => exact hHeld
    | request op next => rw [h] at hIdle; cases hIdle
  exact isolated_of_safe (Machine.sound hProof hSafe hRun) hNodup hIds hEnough

def uneventful : Env := ⟨.ok [], .ok [], none⟩

def tripleRuns : Study := ⟨true, 3, [driftMetric]⟩

def idleWorkers : Workers 2 := ⟨⟨[1, 2], fun _ => none⟩, fun _ => .pure []⟩

def bothStarted : List (Label (Fin 2) Env ℕ Empty) :=
  [.start 0 7, .start 1 8, .step 0 uneventful, .step 1 uneventful, .step 1 uneventful, .step 0 uneventful]

theorem isolated_of_reaches_two_workers : ∃ workers,
    Reaches (machine _ tripleRuns).next (fun _ _ => True) idleWorkers workers ∧ workers.shared.free = [] ∧
      Isolated [1, 2] workers := by
  have hReplay : (replay (machine _ tripleRuns).next (fun _ _ => True) bothStarted idleWorkers).map (·.shared.free) =
      some [] := by decide
  obtain ⟨workers, hRun, hFree⟩ := Reaches.of_observed _ _ hReplay
  have hStart : Start [1, 2] idleWorkers := ⟨rfl, fun _ => rfl⟩
  exact ⟨workers, hRun, hFree, @isolated_of_reaches 2 _ _ _ workers rfl rfl hStart hRun⟩

end RoveMapping.Tuner.DomainPool
