import Mathlib.Data.List.Sort
import RoveMapping.Tuner.TrialRunner

/-! # Trials, their directories and the processes they start

What each operation does to the output root, the process groups and the registry, and the two
programs that work on whole trials: `run_trial` and `cleanup_orphan_trials`.
-/
namespace RoveMapping.Tuner.TrialRunner
open Resumption PosixPath
set_option autoImplicit false

structure Procs where
  spawned : ProcId
  alive : ProcId → Bool
  returncode : ProcId → Int
  outputDir : ProcId → Place
  active : List ProcId
  shutdown : Bool
  exited : Option Int
  /-- The group that a thread has started and not yet registered. -/
  unregistered : Thread → Option ProcId
  copied : Bool

structure World where
  dirs : List Place
  entries : Place → List (String × Content)
  bags : String → Bool
  procs : Procs
  /-- The writer of the database whose trajectory was scored last. -/
  scored : Option (Option ProcId)

def World.blank : World where
  dirs := [["data"], []]
  entries _ := []
  bags _ := true
  procs :=
    { spawned := 0, alive := fun _ => false, returncode := fun _ => 0, outputDir := fun _ => [], active := [],
      shutdown := false, exited := none, unregistered := fun _ => none, copied := false }
  scored := none

structure Env where
  io : Option Exc
  spawn : Option Exc
  time : ℚ
  /-- The group survives a signal that can be survived. -/
  survives : Bool
  /-- A group that has ended is still found by its id. -/
  lingers : Bool
  exported : Except String Unit
  /-- The files that `rtabmap-export` writes. -/
  exports : List String
  stats : Except String (TrajectoryStats ℚ)

def obliging : Env where
  io := none
  spawn := none
  time := 0
  survives := false
  lingers := false
  exported := .ok ()
  exports := ["trajectory_poses.txt"]
  stats := .ok ⟨100, 60, 40, [0, 0, 0], [1, 0, 0], 1, some (1 / 40), none, 0, none, none⟩

namespace Procs

def start (ps : Procs) (i : Thread) (place : Place) : Procs :=
  { ps with
    spawned := ps.spawned + 1
    alive := Function.update ps.alive ps.spawned true
    outputDir := Function.update ps.outputDir ps.spawned place
    unregistered := Function.update ps.unregistered i (some ps.spawned) }

def kill (ps : Procs) (p : ProcId) (code : Int) : Procs :=
  { ps with
    alive := Function.update ps.alive p false
    returncode := Function.update ps.returncode p code }

def register (ps : Procs) (i : Thread) (p : ProcId) : Procs :=
  { ps with active := ps.active.insert p, unregistered := Function.update ps.unregistered i none }

def unregister (ps : Procs) (p : ProcId) : Procs := { ps with active := ps.active.filter (· ≠ p) }

end Procs

/-- Whether `*poses*.txt` matches a name. -/
def posesTxt (name : String) : Bool :=
  let chars := name.toList
  ".txt".toList.isSuffixOf chars && (chars.take (chars.length - 4)).tails.any fun rest => "poses".toList.isPrefixOf rest

/-- The names under which an exported trajectory is looked for. -/
def exportName (name : String) : Bool := name = "trajectory.txt" || posesTxt name

namespace World

def files (w : World) (place : Place) (name : String) : Option Content := (w.entries place).lookup name

def put (w : World) (place : Place) (name : String) (content : Content) : World :=
  { w with entries := Function.update w.entries place ((name, content) :: w.entries place) }

def exists? (w : World) (place : Place) (name : String) : Bool := (w.files place name).isSome || name :: place ∈ w.dirs

def isFile (w : World) : Place → Bool
  | [] => false
  | name :: place => (w.files place name).isSome

/-- A file is on the way. -/
def obstructed (w : World) (dir : Path) : Bool := dir.trail.any w.isFile

def makeDir (w : World) (dir : Path) : World := { w with dirs := dir.trail ++ w.dirs }

def removeTree (w : World) (place : Place) : World :=
  { w with
    dirs := w.dirs.filter fun dir => !place.isSuffixOf dir
    entries := fun dir => if place.isSuffixOf dir then [] else w.entries dir }

def removeFile (w : World) (place : Place) (name : String) : World :=
  { w with entries := Function.update w.entries place ((w.entries place).filter (·.1 ≠ name)) }

/-- The files of an exported trajectory. -/
def putExports (w : World) (place : Place) (names : List String) (writer : Option ProcId) : World :=
  let written := names.filter fun name => exportName name && decide (name :: place ∉ w.dirs)
  { w with entries := Function.update w.entries place (written.map (·, .trajectory writer) ++ w.entries place) }

def subdirs (w : World) (place : Place) : List String :=
  (w.dirs.filterMap fun
    | [] => none
    | name :: parent => if parent = place then some name else none).dedup.insertionSort (· ≤ ·)

/-- `sorted(work_dir.glob('*poses*.txt'))` -/
def candidates (w : World) (place : Place) : List String :=
  (((w.entries place).map (·.1) ++ w.subdirs place).dedup.filter posesTxt).insertionSort (· ≤ ·)

@[grind =] theorem put_files (w : World) (place place' : Place) (name name' : String) (content : Content) :
    (w.put place name content).files place' name' =
      if place' = place ∧ name' = name then some content else w.files place' name' := by
  by_cases hPlace : place' = place
  · subst hPlace
    by_cases hName : name' = name
    · subst hName
      simp [put, files]
    · simp [put, files, List.lookup_cons, beq_eq_false_iff_ne.mpr hName, hName]
  · simp [put, files, hPlace]

@[grind =] theorem removeFile_files (w : World) (place place' : Place) (name name' : String) :
    (w.removeFile place name).files place' name' = if place' = place ∧ name' = name then none else w.files place' name' := by
  by_cases hPlace : place' = place
  · subst hPlace
    simp only [removeFile, files, Function.update_self, true_and]
    induction w.entries place' with
    | nil => split <;> rfl
    | cons entry rest ih =>
      obtain ⟨first, content⟩ := entry
      by_cases hFirst : first = name
      · subst hFirst
        by_cases hName : name' = first
        · simpa [hName] using ih
        · simpa [List.lookup_cons, beq_eq_false_iff_ne.mpr hName, hName] using ih
      · by_cases hName : name' = first
        · subst hName
          simp [hFirst]
        · simpa [List.lookup_cons, hFirst, beq_eq_false_iff_ne.mpr hName] using ih
  · simp [removeFile, files, hPlace]

@[grind =] theorem removeTree_files (w : World) (place place' : Place) (name : String) :
    (w.removeTree place).files place' name = if place <:+ place' then none else w.files place' name := by
  by_cases hUnder : place <:+ place'
  · simp [files, removeTree, hUnder]
  · simp [files, removeTree, hUnder]

theorem isFile_put {w : World} {place place' : Place} {name : String} {content : Content} (h : place' ≠ name :: place) :
    (w.put place name content).isFile place' = w.isFile place' := by
  cases place' with
  | nil => rfl
  | cons first rest =>
    rw [isFile, isFile, put_files, if_neg]
    rintro ⟨rfl, rfl⟩
    exact h rfl

theorem obstructed_put {w : World} {dir : Path} {place : Place} {name : String} {content : Content}
    (hTrail : name :: place ∉ dir.trail) : (w.put place name content).obstructed dir = w.obstructed dir := by
  rw [Bool.eq_iff_iff, obstructed, obstructed, List.any_eq_true, List.any_eq_true]
  refine exists_congr fun other => and_congr_right fun hOther => ?_
  rw [isFile_put fun hEq => hTrail (hEq ▸ hOther)]

theorem isFile_removeFile {w : World} {place place' : Place} {name : String} :
    (w.removeFile place name).isFile place' = (w.isFile place' && place' != name :: place) := by
  cases place' with
  | nil => simp [isFile]
  | cons first rest =>
    rw [isFile, isFile, removeFile_files, Bool.eq_iff_iff]
    grind

theorem lookup_map_const {names : List String} {content : Content} {name : String} :
    (names.map (·, content)).lookup name = if name ∈ names then some content else none := by
  induction names with
  | nil => rfl
  | cons first rest ih =>
    rw [List.map_cons, List.lookup_cons, ih]
    by_cases hFirst : name = first
    · simp [hFirst]
    · simp [hFirst, beq_eq_false_iff_ne.mpr hFirst]

@[grind =] theorem putExports_files (w : World) (place place' : Place) (names : List String) (writer : Option ProcId) (name : String) :
    (w.putExports place names writer).files place' name =
      if place' = place ∧ name ∈ names ∧ exportName name = true ∧ name :: place ∉ w.dirs then some (.trajectory writer)
      else w.files place' name := by
  by_cases hPlace : place' = place
  · subst hPlace
    simp only [putExports, files, Function.update_self, List.lookup_append, lookup_map_const, true_and]
    by_cases hWritten : name ∈ names ∧ exportName name = true ∧ name :: place' ∉ w.dirs
    · simp [hWritten]
    · rw [if_neg hWritten, if_neg (by simpa using hWritten)]
      rfl
  · simp [putExports, files, hPlace]

section Frame

variable (w : World) (place : Place) (dir : Path) (name : String) (names : List String) (content : Content)
  (writer : Option ProcId)

@[simp, grind =] theorem put_procs : (w.put place name content).procs = w.procs := rfl
@[simp, grind =] theorem put_scored : (w.put place name content).scored = w.scored := rfl
@[simp, grind =] theorem put_bags : (w.put place name content).bags = w.bags := rfl
@[simp, grind =] theorem put_dirs : (w.put place name content).dirs = w.dirs := rfl
@[simp, grind =] theorem putExports_procs : (w.putExports place names writer).procs = w.procs := rfl
@[simp, grind =] theorem putExports_scored : (w.putExports place names writer).scored = w.scored := rfl
@[simp, grind =] theorem putExports_bags : (w.putExports place names writer).bags = w.bags := rfl
@[simp, grind =] theorem putExports_dirs : (w.putExports place names writer).dirs = w.dirs := rfl
@[simp, grind =] theorem makeDir_procs : (w.makeDir dir).procs = w.procs := rfl
@[simp, grind =] theorem makeDir_scored : (w.makeDir dir).scored = w.scored := rfl
@[simp, grind =] theorem makeDir_bags : (w.makeDir dir).bags = w.bags := rfl
@[simp, grind =] theorem makeDir_files : (w.makeDir dir).files place name = w.files place name := rfl
@[simp, grind =] theorem makeDir_dirs : (w.makeDir dir).dirs = dir.trail ++ w.dirs := rfl
@[simp, grind =] theorem procs_files (ps : Procs) : { w with procs := ps }.files place name = w.files place name := rfl
@[simp, grind =] theorem scored_files (scored : Option (Option ProcId)) :
    { w with scored := scored }.files place name = w.files place name := rfl
@[simp, grind =] theorem removeTree_procs : (w.removeTree place).procs = w.procs := rfl
@[simp, grind =] theorem removeTree_bags : (w.removeTree place).bags = w.bags := rfl
@[simp, grind =] theorem removeTree_scored : (w.removeTree place).scored = w.scored := rfl
@[simp, grind =] theorem removeFile_scored : (w.removeFile place name).scored = w.scored := rfl
@[simp, grind =] theorem removeFile_procs : (w.removeFile place name).procs = w.procs := rfl

end Frame

theorem mem_subdirs {w : World} {place : Place} {name : String} : name ∈ w.subdirs place ↔ name :: place ∈ w.dirs := by
  rw [subdirs, List.mem_insertionSort, List.mem_dedup, List.mem_filterMap]
  constructor
  · rintro ⟨dir, hDir, hName⟩
    cases dir with
    | nil => cases hName
    | cons first parent =>
      obtain ⟨rfl, hFirst⟩ := Option.ite_none_right_eq_some.mp hName
      rwa [← Option.some.inj hFirst]
  · intro hDir
    exact ⟨_, hDir, if_pos rfl⟩

end World

def Signal.code : Signal → Int
  | .sigint => -2
  | .sigterm => -15
  | .sigkill => -9

def Content.writer : Content → Option ProcId
  | .database writer | .trajectory writer => writer
  | _ => none

def lookupFailure (env : Env) : Except Exc Unit := if env.lingers then .ok () else .error .processLookupError

def effect (parses : List Char → Bool) : Semantics runner Thread World Env := fun i op env w =>
  match op with
  | .mkdir dir => some <| match env.io with
    | some exc => (.error exc, w)
    | none => if w.obstructed dir then (.error (.osError "File exists"), w) else (.ok (), w.makeDir dir)
  | .render overrides dir => some <| match Template.render parses overrides Template.launchText, env.io with
    | .error exc, _ => (.error (.template exc), w)
    | .ok _, some exc => (.error exc, w)
    | .ok rendered, none =>
      if w.obstructed dir then (.error (.osError "File exists"), w)
      else if "trial.launch.py" :: dir.place ∈ (w.makeDir dir).dirs then (.error (.osError "Is a directory"), w.makeDir dir)
      else (.ok (), (w.makeDir dir).put dir.place "trial.launch.py" (.launch rendered))
  | .write dir name content => some <| match env.io with
    | some exc => (.error exc, w)
    | none =>
      if name :: dir.place ∈ w.dirs then (.error (.osError "Is a directory"), w) else (.ok (), w.put dir.place name content)
  | .fileExists dir name => some (.ok (w.exists? dir.place name), w)
  | .bagExists bag => some (.ok (w.bags bag), w)
  | .time => some (.ok env.time, w)
  | .sleep _ => some (.ok (), w)
  | .popen _ dir => some <| match env.spawn with
    | some exc => (.error exc, w)
    | none => (.ok w.procs.spawned, { w with procs := w.procs.start i dir.place })
  | .register p => some (.ok (), { w with procs := w.procs.register i p })
  | .unregister p => some (.ok (), { w with procs := w.procs.unregister p })
  | .poll p => some (.ok (if w.procs.alive p then none else some (w.procs.returncode p)), w)
  | .getpgid p => some (if w.procs.alive p then (.ok (), w) else (lookupFailure env, w))
  | .killpg p sig => some <|
      if w.procs.alive p then
        (.ok (), if env.survives ∧ sig ≠ .sigkill then w else { w with procs := w.procs.kill p sig.code })
      else (lookupFailure env, w)
  | .wait p timeout =>
      if w.procs.alive p then if timeout.isSome then some (.error .timeoutExpired, w) else none
      else some (.ok (w.procs.returncode p), w)
  | .exportTrajectory dir => some <| match w.files dir.place "rtabmap.db" with
    | some (.database writer) => (.ok env.exported, w.putExports dir.place env.exports writer)
    | _ => (.ok (.error "rtabmap-export failed"), w)
  | .globPoses dir => some (.ok (w.candidates dir.place), w)
  | .copyTrajectory dir name => some <| match w.files dir.place name with
    | some content =>
      if "trajectory.tum" :: dir.place ∈ w.dirs then (.ok (.error "Is a directory"), w)
      else (.ok (.ok ()), w.put dir.place "trajectory.tum" content)
    | none => (.ok (.error "Is a directory"), w)
  | .computeStats dir => some <| match env.stats with
    | .error text => (.ok (.error text), w)
    | .ok stats => (.ok (.ok stats), { w with scored := (w.files dir.place "trajectory.tum").map Content.writer })
  | .isShutdown => some (.ok w.procs.shutdown, w)
  | .setShutdown => some (.ok (), { w with procs := { w.procs with shutdown := true } })
  | .copyActive => some (.ok w.procs.active, { w with procs := { w.procs with copied := true } })
  | .osExit code => some (.ok (), { w with procs := { w.procs with exited := some code } })
  | .iterdir dir => some (.ok (w.subdirs dir.place), w)
  | .rmtree dir => some <| match env.io with
    | some exc => (.error exc, w)
    | none => (.ok (), w.removeTree dir.place)

theorem bags_of_effect {parses : List Char → Bool} {i : Thread} {op : Op} {env : Env} {w w' : World}
    {r : Except Exc op.Ans} (h : effect parses i op env w = some (r, w')) : w'.bags = w.bags := by
  cases op with
  | register | unregister | setShutdown | copyActive | osExit =>
    cases h
    rfl
  | _ =>
    simp only [effect] at h
    grind

theorem scored_of_effect {parses : List Char → Bool} {i : Thread} {op : Op} {env : Env} {w w' : World}
    {r : Except Exc op.Ans} (hStats : ∀ dir, op ≠ .computeStats dir) (h : effect parses i op env w = some (r, w')) :
    w'.scored = w.scored := by
  cases op with
  | computeStats dir => exact absurd rfl (hStats dir)
  | register | unregister | setShutdown | copyActive | osExit =>
    cases h
    rfl
  | _ =>
    simp only [effect] at h
    grind

/-- After `os._exit` nothing of the program runs any more. -/
def sem (parses : List Char → Bool) : Semantics runner Thread World Env := fun i op env w =>
  if w.procs.exited.isSome then none else effect parses i op env w

theorem effect_of_sem {parses : List Char → Bool} {i : Thread} {op : Op} {env : Env} {w w' : World}
    {r : Except Exc op.Ans} (h : sem parses i op env w = some (r, w')) :
    w.procs.exited = none ∧ effect parses i op env w = some (r, w') := by
  unfold sem at h
  split at h
  · cases h
  · rename_i hRunning
    exact ⟨by simpa using hRunning, h⟩

/-- What process groups do of themselves while they live. -/
inductive Event where
  | exits (p : ProcId) (code : Int)
  | writesDatabase (p : ProcId)
  | removesDatabase (p : ProcId)

def onEvent : Event → World → Option World
  | .exits p code, w => if w.procs.alive p then some { w with procs := w.procs.kill p code } else none
  | .writesDatabase p, w =>
    if w.procs.alive p ∧ "rtabmap.db" :: w.procs.outputDir p ∉ w.dirs then
      some (w.put (w.procs.outputDir p) "rtabmap.db" (.database (some p)))
    else none
  | .removesDatabase p, w => if w.procs.alive p then some (w.removeFile (w.procs.outputDir p) "rtabmap.db") else none

def semAlone (parses : List Char → Bool) : Semantics runner Unit World Env := fun _ => sem parses (.worker 0)

def alone (parses : List Char → Bool) (ρ : Type) : Machine runner Unit World Env Empty Event ρ :=
  ⟨semAlone parses, fun _ call => call.elim, onEvent⟩

theorem reaches_alone {parses : List Char → Bool} {ρ : Type} {ok : Pool runner Unit World ρ → Label Unit Env Empty Event → Prop}
    (w : World) (p : Program runner ρ) :
    Reaches (alone parses ρ).next ok ⟨w, fun _ => p⟩ ⟨w, Function.update (fun _ => p) () p⟩ := by
  rw [Function.update_eq_self]
  exact .refl

def pathName (path : String) : String :=
  String.ofList ((((path.toList.splitOn '/').filter fun part => part ≠ [] ∧ part ≠ ['.']).getLast?).getD [])

def pathStem (name : String) : String :=
  let chars := name.toList
  let suffix := (chars.reverse.takeWhile (· ≠ '.')).length
  -- the last dot neither begins nor ends the name
  if '.' ∈ chars ∧ suffix + 1 < chars.length ∧ 0 < suffix then String.ofList (chars.take (chars.length - suffix - 1))
  else name

def bagName (bag : String) : String :=
  let name := pathName bag
  if pathStem name = "" then name else pathStem name

/-- The directory names of the bags: repeated names get a counter. -/
def assignNames : List (String × ℕ) → List String → List String
  | _, [] => []
  | used, bag :: rest =>
    let name := bagName bag
    match used.lookup name with
    | some count => s!"{name}_{count + 1}" :: assignNames ((name, count + 1) :: used) rest
    | none => name :: assignNames ((name, 0) :: used) rest

def runBags (dir : Path) (overrides : List (String × Template.Override)) (env : EnvConfig) (opts : Options) :
    List (String × String) → Program runner (List (BagRunResult ℚ))
  | [] => return []
  | (bag, name) :: rest => do
    let result ← runSingleBag bag overrides (dir.child name) env opts
    ask (.write (dir.child name) "result.json" (.result result))
    let others ← runBags dir overrides env opts rest
    return result :: others

def effectiveParams (overrides : List (String × Template.Override)) : Program runner (List (String × String)) :=
  match Template.effectiveParams overrides Template.launchText with
  | .ok params => return params
  | .error exc => .throw (.template exc)

structure Trial where
  id : String
  overrides : List (String × Template.Override)
  bags : List String
  env : EnvConfig
  opts : Options

def Trial.names (trial : Trial) : List String := assignNames [] trial.bags

def Trial.dir (trial : Trial) : Path := trial.opts.outputRoot.join trial.id

def runTrial (trial : Trial) : Program runner (TrialResult ℚ) := do
  ask (.mkdir trial.dir)
  let params ← effectiveParams trial.overrides
  ask (.write trial.dir "params.json" (.params params))
  ask (.write trial.dir "env.json" (.env trial.env))
  let runs ← runBags trial.dir trial.overrides trial.env trial.opts (trial.bags.zip trial.names)
  let result : TrialResult ℚ :=
    { trialId := trial.id, params, env := trial.env, runs, success := runs.all (·.success) }
  ask (.write trial.dir "trial.json" (.trial result))
  return result

/-- Whether `cleanup_orphan_trials` looks at a directory of this name. -/
def isTrial (name : String) : Bool := "trial_".toList.isPrefixOf name.toList

def dataRoot : Path := ⟨"/", [], ["data"]⟩

structure CleanupStats where
  inspected : ℕ
  removed : ℕ
  kept : ℕ

/-- The loop of `cleanup_orphan_trials`; a directory that cannot be deleted is left. -/
def cleanupTrials (outputRoot : Path) (deleteDirs : Bool) : List String → CleanupStats → Program runner CleanupStats
  | [], stats => return stats
  | name :: rest, stats => do
    if isTrial name then
      if ← ask (.fileExists (outputRoot.child name) "trial.json") then
        cleanupTrials outputRoot deleteDirs rest { stats with inspected := stats.inspected + 1, kept := stats.kept + 1 }
      else if deleteDirs then
        match ← (ask (.rmtree (outputRoot.child name))).attempt with
        | .ok () =>
          cleanupTrials outputRoot deleteDirs rest { stats with inspected := stats.inspected + 1, removed := stats.removed + 1 }
        | .error _ => cleanupTrials outputRoot deleteDirs rest { stats with inspected := stats.inspected + 1 }
      else cleanupTrials outputRoot deleteDirs rest { stats with inspected := stats.inspected + 1 }
    else cleanupTrials outputRoot deleteDirs rest stats

/-- Where there is no output root, there is nothing in it. -/
def cleanupOrphanTrials (outputRoot : Path) (deleteDirs : Bool) : Program runner CleanupStats := do
  let children ← ask (.iterdir outputRoot)
  cleanupTrials outputRoot deleteDirs children ⟨0, 0, 0⟩

end RoveMapping.Tuner.TrialRunner
