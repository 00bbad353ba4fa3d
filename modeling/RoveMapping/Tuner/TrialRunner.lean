import RoveMapping.Library.Decimal
import RoveMapping.Library.Machine
import RoveMapping.Library.PosixPath
import RoveMapping.Tuner.Results
import RoveMapping.Tuner.RenderedLaunch

/-! # Running a trial

`run_single_bag`, `run_trial` and the shutdown handler as programs over the file system, the
process groups and the registry of running processes. Each call that touches one of them is one
operation; a process group lives and dies as a whole.
-/
namespace RoveMapping.Tuner.TrialRunner
open Resumption PosixPath
set_option autoImplicit false

abbrev ProcId : Type := ℕ

/-- What a file holds. A database remembers the process that wrote it, `none` if it was there
before; a trajectory remembers the writer of its database. -/
inductive Content where
  | text (lines : String)
  | launch (rendered : List Char)
  | log
  | database (writer : Option ProcId)
  | trajectory (writer : Option ProcId)
  | params (params : List (String × String))
  | env (env : EnvConfig)
  | metrics (score : ScoreResult ℚ)
  | result (result : BagRunResult ℚ)
  | trial (result : TrialResult ℚ)

inductive Signal where
  | sigint | sigterm | sigkill
  deriving DecidableEq, Repr

inductive Exc where
  | processLookupError
  | timeoutExpired
  | osError (text : String)
  | template (exc : Template.Exc)

/-- A worker thread of the optimizer, or the frame of the signal handler. -/
inductive Thread where
  | worker (index : ℕ)
  | handler
  deriving DecidableEq

inductive Op where
  | mkdir (dir : Path)
  | render (overrides : List (String × Template.Override)) (dir : Path)
  | write (dir : Path) (name : String) (content : Content)
  | fileExists (dir : Path) (name : String)
  | bagExists (bag : String)
  | time
  | sleep (seconds : ℚ)
  | popen (cmd : List String) (dir : Path)
  | register (p : ProcId)
  | unregister (p : ProcId)
  | poll (p : ProcId)
  | getpgid (p : ProcId)
  | killpg (p : ProcId) (sig : Signal)
  | wait (p : ProcId) (timeout : Option ℚ)
  /-- `rtabmap-export --poses`; which files it writes depends on its version. -/
  | exportTrajectory (dir : Path)
  | globPoses (dir : Path)
  | copyTrajectory (dir : Path) (name : String)
  | computeStats (dir : Path)
  | isShutdown
  | setShutdown
  | copyActive
  | osExit (code : Int)
  | iterdir (dir : Path)
  | rmtree (dir : Path)

@[reducible] def Op.Ans : Op → Type
  | .mkdir _ | .render _ _ | .write _ _ _ | .sleep _ | .register _ | .unregister _ | .getpgid _ | .killpg _ _
  | .setShutdown | .osExit _ | .rmtree _ => Unit
  | .fileExists _ _ | .bagExists _ | .isShutdown => Bool
  | .time => ℚ
  | .popen _ _ => ProcId
  | .poll _ => Option Int
  | .wait _ _ => Int
  | .exportTrajectory _ | .copyTrajectory _ _ => Except String Unit
  | .globPoses _ => List String
  | .computeStats _ => Except String (TrajectoryStats ℚ)
  | .copyActive => List ProcId
  | .iterdir _ => List String

abbrev runner : Signature := ⟨Op, Op.Ans, Exc⟩

def ask (op : Op) : Program runner op.Ans := @Program.perform runner op

/-- Keyword arguments of a run; `maxBagDurationS` with its `str()`. -/
structure Options where
  outputRoot : Path
  warmupS : ℚ := 5
  drainS : ℚ := 3
  shutdownTimeoutS : ℚ := 30
  maxBagDurationS : Option (ℚ × String) := none
  rosDomainId : Option ℕ := none
  dryRun : Bool := false

/-- SIGINT, then SIGTERM, then SIGKILL, each with some time to exit. -/
def escalate (p : ProcId) : List (Signal × ℚ) → Program runner Unit
  | [] => return ()
  | (sig, timeout) :: rest => do
    match ← (ask (.killpg p sig)).attempt with
    | .error .processLookupError => return ()
    | .error exc => .throw exc
    | .ok () =>
      match ← (ask (.wait p (some timeout))).attempt with
      | .error .timeoutExpired => escalate p rest
      | .error exc => .throw exc
      | .ok _ => return ()

def signalGroup (p : ProcId) (escalation : List (Signal × ℚ)) : Program runner Unit := do
  match ← (ask (.getpgid p)).attempt with
  | .error .processLookupError => return ()
  | .error exc => .throw exc
  | .ok () => escalate p escalation

def terminateProcessGroup (p : ProcId) (sigintTimeoutS : ℚ) : Program runner Unit :=
  signalGroup p [(.sigint, sigintTimeoutS), (.sigterm, 5), (.sigkill, 5)]

def killProcGroupEscalating (p : ProcId) : Program runner Unit := do
  if (← ask (.poll p)).isSome then return ()
  else signalGroup p [(.sigint, 5), (.sigterm, 3), (.sigkill, 1)]

def killAll : List ProcId → Program runner Unit
  | [] => return ()
  | p :: rest => do
    killProcGroupEscalating p
    killAll rest

/-- As a signal handler; without a signal it is the hook of `atexit`. -/
def emergencyShutdown (signum : Option Signal) : Program runner Unit := do
  if ← ask .isShutdown then return ()
  else
    ask .setShutdown
    let procs ← ask .copyActive
    killAll procs
    match signum with
    | some sig => ask (.osExit (if sig = .sigint then 130 else 143))
    | none => return ()

def buildLaunchCmd (launchFile dbPath : String) (env : EnvConfig) : List String :=
  let args := [("database_path", dbPath), ("lidar_topic", env.lidarTopic), ("imu_topic", env.imuTopic),
    ("frame_id", env.frameId), ("fixed_frame_id", env.fixedFrameId),
    ("expected_update_rate", env.expectedUpdateRate), ("qos", toString env.qos),
    ("deskewing", if env.deskewing then "true" else "false"), ("use_sim_time", "true"), ("enable_viz", "false")]
  ["ros2", "launch", launchFile] ++ (args.filter fun arg => arg.2 ≠ "").map fun arg => arg.1 ++ ":=" ++ arg.2

def buildBagCmd (bagPath : String) (env : EnvConfig) : List String :=
  ["ros2", "bag", "play", bagPath, "--clock"] ++ env.bagPlayArgs

def minNPoses : ℕ := 5
def minPathLengthM : ℚ := 3 / 10

def findExportOutput (dir : Path) : Program runner (Option String) := do
  if ← ask (.fileExists dir "trajectory_poses.txt") then return some "trajectory_poses.txt"
  else if ← ask (.fileExists dir "trajectory.txt") then return some "trajectory.txt"
  else
    let candidates ← ask (.globPoses dir)
    return candidates.head?

def exportTumTrajectory (dir : Path) : Program runner (Except String Unit) := do
  match ← ask (.exportTrajectory dir) with
  | .error text => return .error text
  | .ok () =>
    match ← findExportOutput dir with
    | some name => ask (.copyTrajectory dir name)
    | none => return .error s!"rtabmap-export succeeded but produced no _poses.txt file in {dir.str}"

def rejectDegenerate (stats : TrajectoryStats ℚ) : Except String (TrajectoryStats ℚ) :=
  if stats.nPoses < minNPoses then
    .error s!"trajectory too sparse: {stats.nPoses} poses (min 5); likely metric gaming"
  else if stats.pathLengthM < minPathLengthM then
    .error s!"trajectory too short: {Decimal.fixed 3 stats.pathLengthM}m path (min 0.3m); likely metric gaming"
  else .ok stats

def trajectoryStats (dir : Path) : Program runner (Except String (TrajectoryStats ℚ)) := do
  let dbPath := (dir.child "rtabmap.db").str
  if ← ask (.fileExists dir "rtabmap.db") then
    match ← exportTumTrajectory dir with
    | .error text => return .error text
    | .ok () =>
      let stats ← ask (.computeStats dir)
      return stats.bind rejectDegenerate
  else return .error s!"database does not exist: {dbPath}"

def scoreRun (dir : Path) : Program runner (ScoreResult ℚ) := do
  let dbPath := (dir.child "rtabmap.db").str
  ask (.mkdir dir)
  let score : ScoreResult ℚ := match ← trajectoryStats dir with
    | .ok stats => { dbPath, success := true, stats := some stats }
    | .error text => { dbPath, success := false, error := some text }
  ask (.write dir "metrics.json" (.metrics score))
  return score

def failedRun (dir : Path) (bagPath : String) (durationS : ℚ) (reason : String) :
    Program runner (BagRunResult ℚ) := do
  let found ← ask (.fileExists dir "rtabmap.db")
  return { bagPath, dbPath := if found then some (dir.child "rtabmap.db").str else none,
           success := false, durationS, failureReason := some reason }

/-- What the `try` block is left with once playback is over. -/
structure Playback where
  timedOut : Bool
  returncode : Int

def playBag (opts : Options) (dir : Path) (bagCmd : List String) : Program runner Playback := do
  ask (.write dir "bag.log" .log)
  let bagProc ← ask (.popen bagCmd dir)
  ask (.register bagProc)
  let timedOut ← do
    match ← (ask (.wait bagProc (opts.maxBagDurationS.map (·.1)))).attempt with
    | .ok _ => pure false
    | .error .timeoutExpired =>
      terminateProcessGroup bagProc 10
      pure true
    | .error exc => .throw exc
  ask (.unregister bagProc)
  let returncode ← ask (.poll bagProc)
  return ⟨timedOut, returncode.getD 0⟩

/-- From the start of the launch to its end: the run is over early, or the bag has been played. -/
def supervise (opts : Options) (dir : Path) (bagPath : String) (bagCmd : List String) (start : ℚ) (launchProc : ProcId) :
    Program runner (BagRunResult ℚ ⊕ Playback) := do
  ask (.register launchProc)
  ask (.sleep opts.warmupS)
  match ← ask (.poll launchProc) with
  | some code =>
    ask (.unregister launchProc)
    let now ← ask .time
    let launchLog := (dir.child "launch.log").str
    return .inl { bagPath, dbPath := none, success := false, durationS := now - start,
                  failureReason := some (s!"launch exited before bag started (code {code}); " ++
                    s!"see {launchLog}") }
  | none =>
    let playback ← playBag opts dir bagCmd
    ask (.sleep opts.drainS)
    terminateProcessGroup launchProc opts.shutdownTimeoutS
    ask (.unregister launchProc)
    return .inr playback

/-- The `finally` block, as long as `launch_proc` is set. -/
def cleanUp (opts : Options) (launchProc : ProcId) : Program runner Unit := do
  if (← ask (.poll launchProc)).isNone then
    terminateProcessGroup launchProc opts.shutdownTimeoutS
    ask (.unregister launchProc)

/-- `launch_proc` is reset once the launch has ended, so that the `finally` block then does nothing. -/
def launchAndPlay (opts : Options) (dir : Path) (bagPath : String) (launchCmd bagCmd : List String) (start : ℚ) :
    Program runner (BagRunResult ℚ ⊕ Playback) := do
  ask (.write dir "launch.log" .log)
  let launchProc ← ask (.popen launchCmd dir)
  match ← (supervise opts dir bagPath bagCmd start launchProc).attempt with
  | .ok (.inr playback) => return .inr playback
  | .ok (.inl result) =>
    cleanUp opts launchProc
    return .inl result
  | .error exc =>
    cleanUp opts launchProc
    .throw exc

def judge (opts : Options) (dir : Path) (bagPath : String) (start : ℚ) (playback : Playback) :
    Program runner (BagRunResult ℚ) := do
  let now ← ask .time
  let durationS := now - start
  let bagLog := (dir.child "bag.log").str
  let launchLog := (dir.child "launch.log").str
  if playback.timedOut then
    let limit := (opts.maxBagDurationS.map (·.2)).getD "None"
    failedRun dir bagPath durationS s!"bag playback exceeded --max-bag-duration-s ({limit}s); see {bagLog}"
  else if playback.returncode ≠ 0 then
    failedRun dir bagPath durationS s!"bag exited with code {playback.returncode}; see {bagLog}"
  else if ← ask (.fileExists dir "rtabmap.db") then
    let score ← scoreRun dir
    return { bagPath, dbPath := some (dir.child "rtabmap.db").str, success := true, durationS, metrics := some score }
  else
    return { bagPath, dbPath := none, success := false, durationS,
             failureReason := some s!"rtabmap.db was not created; see {launchLog}" }

def runSingleBag (bagPath : String) (overrides : List (String × Template.Override)) (dir : Path) (env : EnvConfig)
    (opts : Options) : Program runner (BagRunResult ℚ) := do
  ask (.mkdir dir)
  ask (.render overrides dir)
  let launchCmd := buildLaunchCmd (dir.child "trial.launch.py").str (dir.child "rtabmap.db").str env
  let bagCmd := buildBagCmd bagPath env
  let domain := match opts.rosDomainId with
    | some id => s!"ROS_DOMAIN_ID={id} "
    | none => ""
  ask (.write dir "launch.cmd" (.text (domain ++ " ".intercalate launchCmd ++ "\n")))
  ask (.write dir "bag.cmd" (.text (" ".intercalate bagCmd ++ "\n")))
  if opts.dryRun then
    return { bagPath, dbPath := none, success := true, durationS := 0, failureReason := some "dry-run" }
  else if ← ask (.bagExists bagPath) then
    let start ← ask .time
    match ← launchAndPlay opts dir bagPath launchCmd bagCmd start with
    | .inl result => return result
    | .inr playback => judge opts dir bagPath start playback
  else
    return { bagPath, dbPath := none, success := false, durationS := 0,
             failureReason := some s!"bag path does not exist: {bagPath}" }

end RoveMapping.Tuner.TrialRunner
