import RoveMapping.Tuner.TrialWorld

/-! # The footprint of a bag run

Which operations each part of `run_single_bag` can request: the playing of a bag starts and ends
processes and writes two logs, the scoring only works on the files of the output directory.
-/
namespace RoveMapping.Tuner.TrialRunner
open Resumption PosixPath
set_option autoImplicit false

def Op.Processes : Op → Prop
  | .sleep _ | .popen _ _ | .register _ | .unregister _ | .poll _ | .getpgid _ | .killpg _ _ | .wait _ _ => True
  | _ => False

def Op.Playing (dir : Path) (op : Op) : Prop :=
  op.Processes ∨ op = .time ∨ ∃ name ∈ ["launch.log", "bag.log"], op = .write dir name .log

def Op.Scoring (dir : Path) : Op → Prop
  | .mkdir dir' | .fileExists dir' _ | .exportTrajectory dir' | .globPoses dir' | .copyTrajectory dir' _
  | .computeStats dir' => dir' = dir
  | .write dir' name _ => dir' = dir ∧ name = "metrics.json"
  | .time => True
  | _ => False

/-- The operations before the launch is started. -/
def Op.Preparing (dir : Path) : Op → Prop
  | .mkdir dir' | .render _ dir' => dir' = dir
  | .write dir' name _ => dir' = dir ∧ name ∈ ["launch.cmd", "bag.cmd"]
  | .bagExists _ => True
  | _ => False

def Op.OfBag (dir : Path) (op : Op) : Prop := op.Preparing dir ∨ op.Playing dir ∨ op.Scoring dir

/-- The files that a bag run writes itself; `rtabmap.db` is the work of its processes. -/
def ownFiles : List String :=
  ["trial.launch.py", "launch.cmd", "bag.cmd", "launch.log", "bag.log", "trajectory.tum", "metrics.json"]

theorem ownFile_of_write {dir dir' : Path} {name : String} {content : Content} (h : Op.OfBag dir (.write dir' name content)) :
    dir' = dir ∧ name ∈ ownFiles := by
  rcases h with ⟨hDir, hName⟩ | (hOp | hOp | ⟨log, hLog, hOp⟩) | ⟨hDir, hName⟩
  · exact ⟨hDir, (show ["launch.cmd", "bag.cmd"] ⊆ ownFiles by decide) hName⟩
  · cases hOp
  · cases hOp
  · cases hOp
    exact ⟨rfl, (show ["launch.log", "bag.log"] ⊆ ownFiles by decide) hLog⟩
  · exact ⟨hDir, hName ▸ by decide⟩

/-- Only the exporter writes what its output is looked for under. -/
theorem files_of_bag {parses : List Char → Bool} {i : Thread} {dir : Path} {op : Op} {env : Env} {w w' : World}
    {r : Except Exc op.Ans} (hOp : op.OfBag dir) (h : effect parses i op env w = some (r, w')) (place : Place)
    {name : String} (hName : name ∉ ownFiles) (hExport : exportName name = true → op ≠ .exportTrajectory dir) :
    w'.files place name = w.files place name := by
  have hNames : name ≠ "trial.launch.py" ∧ name ≠ "trajectory.tum" := by
    constructor <;> rintro rfl <;> exact hName (by decide)
  cases op with
  | setShutdown | copyActive | osExit | iterdir | rmtree =>
    rcases hOp with hOp | (hOp | hOp | ⟨_, _, hOp⟩) | hOp <;> cases hOp
  | register | unregister =>
    cases h
    rfl
  | write dir'' file content =>
    have hFile : name ≠ file := fun hEq => hName (hEq ▸ (ownFile_of_write hOp).2)
    simp only [effect] at h
    grind
  | exportTrajectory dir' =>
    obtain rfl : dir' = dir := by
      rcases hOp with hOp | (hOp | hOp | ⟨_, _, hOp⟩) | hOp
      · cases hOp
      · cases hOp
      · cases hOp
      · cases hOp
      · exact hOp
    simp only [effect] at h
    grind
  | _ =>
    simp only [effect] at h
    grind

section Directories

variable {parses : List Char → Bool}

/-- A bag run makes no directory but its own and those on the way. -/
theorem dirs_of_bag {dir : Path} {op : Op} {env : Env} {w w' : World} {r : Except Exc op.Ans} (hOp : op.OfBag dir)
    (h : effect parses (.worker 0) op env w = some (r, w')) : w'.dirs = w.dirs ∨ w'.dirs = dir.trail ++ w.dirs := by
  cases op with
  | setShutdown | copyActive | osExit | iterdir | rmtree =>
    rcases hOp with hOp | (hOp | hOp | ⟨_, _, hOp⟩) | hOp <;> cases hOp
  | register | unregister =>
    cases h
    exact .inl rfl
  | mkdir dir' =>
    obtain rfl : dir' = dir := by
      rcases hOp with hOp | (hOp | hOp | ⟨_, _, hOp⟩) | hOp
      · exact hOp
      · cases hOp
      · cases hOp
      · cases hOp
      · exact hOp
    simp only [effect] at h
    grind
  | render overrides dir' =>
    obtain rfl : dir' = dir := by
      rcases hOp with hOp | (hOp | hOp | ⟨_, _, hOp⟩) | hOp
      · exact hOp
      · cases hOp
      · cases hOp
      · cases hOp
      · cases hOp
    simp only [effect] at h
    grind
  | _ =>
    simp only [effect] at h
    grind

end Directories

section Uses

variable {allowed : Op → Prop} {dir : Path}

theorem ask_uses {op : Op} (h : allowed op) : (ask op).Uses allowed := ⟨h, fun _ => Program.uses_ofExcept _⟩

theorem ask_bind_uses {op : Op} {α : Type} {rest : op.Ans → Program runner α} (h : allowed op)
    (hRest : ∀ answer, (rest answer).Uses allowed) : (ask op >>= rest).Uses allowed := (ask_uses h).bind hRest

theorem escalate_uses (p : ProcId) (levels : List (Signal × ℚ)) : (escalate p levels).Uses Op.Processes := by
  induction levels with
  | nil => trivial
  | cons level rest ih =>
    obtain ⟨sig, timeout⟩ := level
    apply (ask_uses trivial).attempt.bind
    rintro (exc | _)
    · cases exc <;> trivial
    · apply (ask_uses trivial).attempt.bind
      rintro (exc | code)
      · cases exc <;> first | exact ih | trivial
      · trivial

theorem signalGroup_uses (p : ProcId) (levels : List (Signal × ℚ)) : (signalGroup p levels).Uses Op.Processes := by
  apply (ask_uses trivial).attempt.bind
  rintro (exc | _)
  · cases exc <;> trivial
  · exact escalate_uses p levels

theorem terminateProcessGroup_uses (p : ProcId) (timeout : ℚ) : (terminateProcessGroup p timeout).Uses Op.Processes :=
  signalGroup_uses p _

theorem playing_of_processes (op : Op) (h : op.Processes) : op.Playing dir := .inl h

theorem playing_log {name : String} (h : name ∈ ["launch.log", "bag.log"]) : Op.Playing dir (.write dir name .log) :=
  .inr (.inr ⟨name, h, rfl⟩)

theorem playBag_uses (opts : Options) (dir : Path) (bagCmd : List String) : (playBag opts dir bagCmd).Uses (Op.Playing dir) := by
  apply ask_bind_uses (playing_log (by decide))
  intro _
  apply ask_bind_uses (.inl trivial)
  intro bagProc
  apply ask_bind_uses (.inl trivial)
  intro _
  have hFinish : ∀ timedOut, (do
      ask (.unregister bagProc)
      let returncode ← ask (.poll bagProc)
      return (⟨timedOut, returncode.getD 0⟩ : Playback) : Program runner Playback).Uses (Op.Playing dir) :=
    fun timedOut => ask_bind_uses (.inl trivial) fun _ => ask_bind_uses (.inl trivial) fun _ => trivial
  apply (ask_uses (.inl trivial)).attempt.bind
  rintro (exc | code)
  · cases exc with
    | timeoutExpired =>
      exact ((terminateProcessGroup_uses bagProc 10).mono playing_of_processes).bind fun _ => hFinish true
    | processLookupError | osError | template => trivial
  · exact hFinish false

theorem supervise_uses (opts : Options) (dir : Path) (bagPath : String) (bagCmd : List String) (start : ℚ) (p : ProcId) :
    (supervise opts dir bagPath bagCmd start p).Uses (Op.Playing dir) := by
  apply ask_bind_uses (.inl trivial)
  intro _
  apply ask_bind_uses (.inl trivial)
  intro _
  apply ask_bind_uses (.inl trivial)
  rintro (_ | code)
  · apply (playBag_uses opts dir bagCmd).bind
    intro playback
    apply ask_bind_uses (.inl trivial)
    intro _
    apply ((terminateProcessGroup_uses p _).mono playing_of_processes).bind
    intro _
    exact ask_bind_uses (.inl trivial) fun _ => trivial
  · apply ask_bind_uses (.inl trivial)
    intro _
    exact ask_bind_uses (.inr (.inl rfl)) fun now => trivial

theorem cleanUp_uses (opts : Options) (p : ProcId) : (cleanUp opts p).Uses Op.Processes := by
  apply ask_bind_uses trivial
  intro code
  split
  · exact (terminateProcessGroup_uses p _).bind fun _ => ask_uses trivial
  · trivial

theorem launchAndPlay_uses (opts : Options) (dir : Path) (bagPath : String) (launchCmd bagCmd : List String) (start : ℚ) :
    (launchAndPlay opts dir bagPath launchCmd bagCmd start).Uses (Op.Playing dir) := by
  apply ask_bind_uses (playing_log (by decide))
  intro _
  apply ask_bind_uses (.inl trivial)
  intro launchProc
  have hCleanUp : (cleanUp opts launchProc).Uses (Op.Playing dir) := (cleanUp_uses opts launchProc).mono playing_of_processes
  apply (supervise_uses opts dir bagPath bagCmd start launchProc).attempt.bind
  rintro (exc | result | playback)
  · exact hCleanUp.bind fun _ => trivial
  · exact hCleanUp.bind fun _ => trivial
  · trivial

theorem findExportOutput_uses (dir : Path) : (findExportOutput dir).Uses (Op.Scoring dir) := by
  refine ask_bind_uses (by exact rfl) fun found => ?_
  split
  · trivial
  · refine ask_bind_uses (by exact rfl) fun found' => ?_
    split
    · trivial
    · exact ask_bind_uses (by exact rfl) fun candidates => trivial

theorem exportTumTrajectory_uses (dir : Path) :
    (exportTumTrajectory dir).Uses (Op.Scoring dir) := by
  refine ask_bind_uses (by exact rfl) ?_
  rintro (text | _)
  · trivial
  · apply (findExportOutput_uses dir).bind
    rintro (_ | name)
    · trivial
    · exact ask_uses (by exact rfl)

theorem trajectoryStats_uses (dir : Path) : (trajectoryStats dir).Uses (Op.Scoring dir) := by
  refine ask_bind_uses (by exact rfl) fun found => ?_
  split
  · apply (exportTumTrajectory_uses dir).bind
    rintro (text | _)
    · trivial
    · exact ask_bind_uses (by exact rfl) fun stats => trivial
  · trivial

theorem scoreRun_uses (dir : Path) : (scoreRun dir).Uses (Op.Scoring dir) := by
  refine ask_bind_uses (by exact rfl) fun _ => ?_
  apply (trajectoryStats_uses dir).bind
  intro outcome
  exact ask_bind_uses ⟨rfl, rfl⟩ fun _ => trivial

theorem failedRun_uses (dir : Path) (bagPath : String) (durationS : ℚ) (reason : String) :
    (failedRun dir bagPath durationS reason).Uses (Op.Scoring dir) := ask_bind_uses (by exact rfl) fun _ => trivial

theorem judge_uses (opts : Options) (dir : Path) (bagPath : String) (start : ℚ) (playback : Playback) :
    (judge opts dir bagPath start playback).Uses (Op.Scoring dir) := by
  apply ask_bind_uses trivial
  intro now
  dsimp only
  split
  · exact failedRun_uses ..
  · split
    · exact failedRun_uses ..
    · refine ask_bind_uses (by exact rfl) fun found => ?_
      split
      · exact (scoreRun_uses _).bind fun _ => trivial
      · trivial

theorem runSingleBag_uses (bagPath : String) (overrides : List (String × Template.Override)) (dir : Path)
    (env : EnvConfig) (opts : Options) : (runSingleBag bagPath overrides dir env opts).Uses (Op.OfBag dir) := by
  apply ask_bind_uses (.inl rfl)
  intro _
  apply ask_bind_uses (.inl rfl)
  intro _
  apply ask_bind_uses (.inl ⟨rfl, by decide⟩)
  intro _
  apply ask_bind_uses (.inl ⟨rfl, by decide⟩)
  intro _
  split
  · trivial
  apply ask_bind_uses (.inl trivial)
  intro found
  split
  · apply ask_bind_uses (.inr (.inl (.inr (.inl rfl))))
    intro start
    apply ((launchAndPlay_uses opts dir bagPath _ _ start).mono fun op h => .inr (.inl h)).bind
    rintro (result | playback)
    · trivial
    · exact (judge_uses opts dir bagPath start playback).mono fun op h => .inr (.inr h)
  · trivial

/-- What a result says of its bag: statistics are those of a run that succeeded and of a path that is
long enough. -/
structure Reported (bagPath : String) (result : BagRunResult ℚ) : Prop where
  bag : result.bagPath = bagPath
  ran : result.metrics.isSome → result.success
  moves : ∀ score ∈ result.metrics, score.success → ∃ stats, score.stats = some stats ∧ minPathLengthM ≤ stats.pathLengthM

theorem reported_unscored {bagPath : String} {result : BagRunResult ℚ} (hBag : result.bagPath = bagPath)
    (hMetrics : result.metrics = none) : Reported bagPath result where
  bag := hBag
  ran h := by simp [hMetrics] at h
  moves score h := by simp [hMetrics] at h

theorem rejectDegenerate_moves {stats stats' : TrajectoryStats ℚ} (h : rejectDegenerate stats = .ok stats') :
    minPathLengthM ≤ stats'.pathLengthM := by
  unfold rejectDegenerate at h
  split at h
  · cases h
  · split at h
    · cases h
    · rename_i hLong
      cases h
      exact not_lt.mp hLong

theorem trajectoryStats_yields (dir : Path) :
    (trajectoryStats dir).Yields fun r => ∀ stats, r = .ok stats → minPathLengthM ≤ stats.pathLengthM := by
  refine .of_bind fun found => ?_
  split
  · refine .of_bind ?_
    rintro (text | _)
    · intro stats hStats
      cases hStats
    · refine .of_bind ?_
      rintro (text | stats) stats' hStats
      · cases hStats
      · exact rejectDegenerate_moves hStats
  · intro stats hStats
    cases hStats

theorem scoreRun_yields (dir : Path) : (scoreRun dir).Yields
    fun score => score.success → ∃ stats, score.stats = some stats ∧ minPathLengthM ≤ stats.pathLengthM := by
  refine .of_bind fun _ => (trajectoryStats_yields dir).bind ?_
  rintro (text | stats) hMoves
  · exact .of_bind fun _ hSuccess => by cases hSuccess
  · exact .of_bind fun _ _ => ⟨stats, rfl, hMoves stats rfl⟩

theorem judge_yields (opts : Options) (dir : Path) (bagPath : String) (start : ℚ) (playback : Playback) :
    (judge opts dir bagPath start playback).Yields (Reported bagPath) := by
  refine .of_bind fun now => ?_
  dsimp only
  split
  · exact .of_bind fun _ => reported_unscored rfl rfl
  · split
    · exact .of_bind fun _ => reported_unscored rfl rfl
    · refine .of_bind fun found => ?_
      split
      · apply (scoreRun_yields dir).bind
        intro score hScore
        refine ⟨rfl, fun _ => rfl, ?_⟩
        rintro _ ⟨⟩
        exact hScore
      · exact reported_unscored rfl rfl

theorem launchAndPlay_yields (opts : Options) (dir : Path) (bagPath : String) (launchCmd bagCmd : List String) (start : ℚ) :
    (launchAndPlay opts dir bagPath launchCmd bagCmd start).Yields
      fun r => ∀ result, r = .inl result → Reported bagPath result := by
  refine .of_bind fun _ => .of_bind fun launchProc => ?_
  have hSupervise : (supervise opts dir bagPath bagCmd start launchProc).Yields
      fun r => ∀ result, r = .inl result → Reported bagPath result := by
    refine .of_bind fun _ => .of_bind fun _ => .of_bind ?_
    rintro (_ | code)
    · refine .of_bind fun playback => .of_bind fun _ => .of_bind fun _ => .of_bind fun _ => ?_
      intro result hResult
      cases hResult
    · refine .of_bind fun _ => .of_bind fun now => ?_
      intro result hResult
      cases hResult
      exact reported_unscored rfl rfl
  apply hSupervise.attempt.bind
  rintro (exc | result | playback) h
  · exact .of_bind fun _ => trivial
  · refine .of_bind fun _ => ?_
    intro result' hResult
    exact h _ rfl _ hResult
  · intro result hResult
    cases hResult

theorem runSingleBag_yields (bagPath : String) (overrides : List (String × Template.Override)) (dir : Path)
    (env : EnvConfig) (opts : Options) : (runSingleBag bagPath overrides dir env opts).Yields (Reported bagPath) := by
  refine .of_bind fun _ => .of_bind fun _ => .of_bind fun _ => .of_bind fun _ => ?_
  split
  · exact reported_unscored rfl rfl
  refine .of_bind fun found => ?_
  split
  · refine .of_bind fun start => ?_
    apply (launchAndPlay_yields opts dir bagPath _ _ start).bind
    rintro (result | playback) h
    · exact h result rfl
    · exact judge_yields opts dir bagPath start playback
  · exact reported_unscored rfl rfl

end Uses
end RoveMapping.Tuner.TrialRunner
