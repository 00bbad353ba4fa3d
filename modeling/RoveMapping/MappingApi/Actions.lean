import RoveMapping.Library.Decimal
import RoveMapping.Library.NearestEven
import RoveMapping.MappingApi.Node

/-! # The actions behind the POST routes -/
namespace RoveMapping.MappingApi
open Resumption Decimal
set_option autoImplicit false

/-- A value of a decoded JSON document; floats by their bits. -/
inductive Value where
  | null
  | bool (b : Bool)
  | int (n : Int)
  | float (bits : UInt64)
  | str (s : String)
  | list (items : List Value)
  | dict (items : List (String × Value))
  deriving Repr

def Value.truthy : Value → Bool
  | .null => false
  | .bool b => b
  | .int n => n != 0
  | .float bits => bits &&& 0x7fffffffffffffff != 0
  | .str s => s != ""
  | .list items => !items.isEmpty
  | .dict items => !items.isEmpty

/-- The dictionary an action returns; only some actions set the optional entries. -/
structure Result where
  ok : Bool
  message : String
  path : Option String := none
  sizeMb : Option ℚ := none
  durationS : Option ℚ := none
  deriving DecidableEq, Repr

def exportDir : String := "/mnt/ssd/sftp/maps"
def rtabmapDb : String := "/mnt/ssd/sftp/rtabmapdb/rtabmap.db"
def rtabmapExportBin : String := "/opt/ros/humble/bin/rtabmap-export"

def actionStart : Program api Result := do
  let state ← ask .readState
  -- skipped only when certain that it is running
  if state = .running then
    return { ok := true, message := "already running" }
  else
    let (ok, msg) ← callEmpty .resume
    if ok then ask (.writeState .running)
    return { ok := ok, message := msg }

def actionPause : Program api Result := do
  let state ← ask .readState
  if state = .paused then
    return { ok := true, message := "already paused" }
  else
    let (ok, msg) ← callEmpty .pause
    if ok then ask (.writeState .paused)
    return { ok := ok, message := msg }

/-- The resume before the reset of a paused mapper; its result is dropped. -/
def resumeBeforeReset (isPaused : Bool) : Program api Unit := do
  if isPaused then
    let _ ← callEmpty .resume
    ask .sleep

def actionReset : Program api Result := do
  let state ← ask .readState
  resumeBeforeReset (state = .paused)
  let (ok, msg) ← callEmpty .reset
  if ok then ask .resetState
  return { ok := ok, message := msg }

def actionNewMap : Program api Result := do
  let (ok, msg) ← callEmpty .trigger
  return { ok := ok, message := msg }

def basename (path : String) : String :=
  String.ofList (path.toList.reverse.takeWhile (· ≠ '/')).reverse

def join (dir name : String) : String := dir ++ "/" ++ name

def requestedName : Value → Program api String
  | .str s => if s = "" then defaultName else pure s
  | value => if value.truthy then .throw (.typeError "expected str, bytes or os.PathLike object") else defaultName
where
  defaultName : Program api String := do
    let stamp ← ask .utcnow
    return s!"scan_{stamp}.ply"

def withPlyExtension (name : String) : String :=
  if ".ply".toList.isSuffixOf (name.toList.map Char.toLower) then name else name ++ ".ply"

/-- `filename[:-4]` -/
def stem (filename : String) : String := String.ofList (filename.toList.dropLast.dropLast.dropLast.dropLast)

def exportCmd (filename : String) : List String :=
  [rtabmapExportBin, "--scan", "--scan_voxel", "0.01", "--ply", "--output_dir", exportDir,
    "--output", stem filename, rtabmapDb]

/-- `str.strip` on the characters that `str.isspace` accepts. -/
def strip (s : String) : String :=
  String.ofList ((s.toList.dropWhile isSpace).reverse.dropWhile isSpace).reverse
where
  isSpace (c : Char) : Bool :=
    let n := c.toNat
    (9 ≤ n && n ≤ 13) || (28 ≤ n && n ≤ 32) || n == 0x85 || n == 0xa0 || n == 0x1680 ||
      (0x2000 ≤ n && n ≤ 0x200a) || n == 0x2028 || n == 0x2029 || n == 0x202f || n == 0x205f || n == 0x3000

def failedExport (message : String) (durationS : ℚ) : Result :=
  { ok := false, message, path := some "", sizeMb := some 0, durationS := some durationS }

def firstFile : List String → Program api (Option String)
  | [] => return none
  | path :: rest => do
    if ← ask (.isFile path) then return some path else firstFile rest

def withMtimes : List String → Program api (List (String × Nat))
  | [] => return []
  | path :: rest => do
    let mtime ← ask (.getmtime path)
    let others ← withMtimes rest
    return (path, mtime) :: others

def plysOf (names : List String) : List String :=
  (names.filter fun name => ".ply".toList.isSuffixOf name.toList).map (join exportDir)

def newest (dated : List (String × Nat)) : Option String :=
  (dated.mergeSort fun a b => a.2 ≤ b.2).getLast?.map (·.1)

def newestPly : Program api (Option String) := do
  let names ← ask (.listdir exportDir)
  let dated ← withMtimes (plysOf names)
  return newest dated

def candidates (filename : String) : List String :=
  [join exportDir filename, join exportDir (stem filename ++ "_cloud.ply"), join exportDir (stem filename ++ "0.ply")]

def findExported (filename : String) : Program api (Option String) := do
  match ← firstFile (candidates filename) with
  | some path => return some path
  | none => newestPly

/-- The nearest double. -/
def double (x : ℚ) : ℚ := NearestEven.rounded 53 (-1074) x

/-- `round(size / 1e6, 2)`: the quotient is a double before it is rounded. -/
def megabytes (size : ℕ) : ℚ := double (roundTo 2 (double (double size / 10 ^ 6)))

example : roundTo 2 (1015000 / 10 ^ 6) = 51 / 50 ∧ megabytes 1015000 = double (101 / 100) := by decide +kernel

def foundResult (duration : ℚ) : Option String → Program api Result
  | none => return failedExport "no PLY after export" duration
  | some path => do
    let size ← ask (.getsize path)
    return { ok := true, message := "Export complete", path := some path,
             sizeMb := some (megabytes size), durationS := some duration }

def exported (filename : String) (duration : ℚ) (proc : CompletedProcess) : Program api Result := do
  if proc.returncode ≠ 0 then
    let text := strip proc.stderr
    let message := if text ≠ "" then text else strip proc.stdout
    return failedExport (if message ≠ "" then message else "failed") duration
  else
    let found ← findExported filename
    foundResult duration found

/-- The `try` around `subprocess.run`: only two exceptions are named. -/
def runExport (filename : String) : Program api Result := do
  let t0 ← ask .time
  match ← (ask (.run (exportCmd filename))).attempt with
  | .error (.fileNotFoundError _) =>
    let t1 ← ask .time
    return failedExport s!"rtabmap-export not found: {rtabmapExportBin}" (roundTo 1 (t1 - t0))
  | .error (.timeoutExpired _) => return failedExport "timed out after 300s" 300
  | .error exc => .throw exc
  | .ok proc =>
    let t1 ← ask .time
    exported filename (roundTo 1 (t1 - t0)) proc

def pauseForExport : Program api Unit := do
  let (ok, _) ← callEmpty .pause
  if ok then ask (.writeState .paused)

def resumeAfterExport (result : Result) : Program api Result := do
  let (ok, msg) ← callEmpty .resume
  if ok then
    ask (.writeState .running)
    return result
  else
    return { result with message := result.message ++ s!" (WARNING: resume failed: {msg})" }

def exportName (filename : Value) : Program api String := do
  ask (.makedirs exportDir)
  let requested ← requestedName filename
  return withPlyExtension (basename requested)

def actionExport (filename : Value) : Program api Result := do
  if ← ask (.isFile rtabmapDb) then
    let name ← exportName filename
    let state ← ask .readState
    let wasRunning := state = .running ∨ state = .unknown
    if wasRunning then
      pauseForExport
      let result ← runExport name
      resumeAfterExport result
    else
      runExport name
  else
    return failedExport s!"DB not found: {rtabmapDb}" 0

/-- Operations on files and clocks: they leave the mapper and what is recorded of it alone. -/
def Op.Local : Op → Prop
  | .sleep | .time | .utcnow | .isFile _ | .makedirs _ | .run _ | .listdir _ | .getmtime _ | .getsize _ => True
  | .readState | .writeState _ | .resetState | .waitForService _ | .callAsync _ => False

theorem answer_local {op : Op} (h : op.Local) (env : Env) (w : World) :
    (answer env w op).2.rtabmap = w.rtabmap ∧ (answer env w op).2.mappingState = w.mappingState ∧
      (answer env w op).2.published = w.published := by
  cases op <;> first | exact ⟨rfl, rfl, rfl⟩ | cases h

theorem ask_uses (op : Op) (h : op.Local) : (ask op).Uses Op.Local :=
  (@Program.uses_perform api Op.Local op).mpr h

theorem firstFile_uses (paths : List String) : (firstFile paths).Uses Op.Local := by
  induction paths with
  | nil => trivial
  | cons path rest ih =>
    apply (ask_uses (.isFile path) trivial).bind
    intro isFile
    split
    · trivial
    · exact ih

theorem withMtimes_uses (paths : List String) : (withMtimes paths).Uses Op.Local := by
  induction paths with
  | nil => trivial
  | cons path rest ih =>
    apply (ask_uses (.getmtime path) trivial).bind
    intro mtime
    exact ih.bind fun others => trivial

theorem findExported_uses (filename : String) : (findExported filename).Uses Op.Local := by
  apply (firstFile_uses _).bind
  intro found
  cases found with
  | some path => trivial
  | none =>
    apply (ask_uses (.listdir exportDir) trivial).bind
    intro names
    exact (withMtimes_uses _).bind fun dated => trivial

theorem exported_uses (filename : String) (duration : ℚ) (proc : CompletedProcess) :
    (exported filename duration proc).Uses Op.Local := by
  unfold exported
  split
  · trivial
  · apply (findExported_uses filename).bind
    intro found
    cases found with
    | none => trivial
    | some path => exact (ask_uses (.getsize path) trivial).bind fun size => trivial

theorem runExport_uses (filename : String) : (runExport filename).Uses Op.Local := by
  have hTime : (ask .time).Uses Op.Local := ask_uses .time trivial
  apply hTime.bind
  intro t0
  apply (ask_uses (.run (exportCmd filename)) trivial).attempt.bind
  intro outcome
  match outcome with
  | .error (.fileNotFoundError _) => exact hTime.bind fun t1 => trivial
  | .error (.timeoutExpired _) | .error (.typeError _) | .error (.other _) => trivial
  | .ok proc => exact hTime.bind fun t1 => exported_uses filename _ proc

theorem requestedName_uses (filename : Value) : (requestedName filename).Uses Op.Local := by
  have hDefault : requestedName.defaultName.Uses Op.Local :=
    (ask_uses .utcnow trivial).bind fun stamp => trivial
  unfold requestedName
  split
  · split
    · exact hDefault
    · trivial
  · split
    · trivial
    · exact hDefault

theorem exportName_uses (filename : Value) : (exportName filename).Uses Op.Local :=
  (ask_uses (.makedirs exportDir) trivial).bind fun _ => (requestedName_uses filename).bind fun _ => trivial

inductive Request where
  | go | pause | restart | newMap
  | «export» (filename : Value)
  deriving Repr

def Request.action : Request → Program api Result
  | .go => actionStart
  | .pause => actionPause
  | .restart => actionReset
  | .newMap => actionNewMap
  | .export filename => actionExport filename

end RoveMapping.MappingApi
