import Mathlib.Data.List.Infix
import Mathlib.Data.List.TakeWhile
import RoveMapping.Library.LastMaximum
import RoveMapping.Library.Solo
import RoveMapping.MappingApi.Export

/-! # Whose file an export returns

`actionExport` again, against a disk of files and directories that rtabmap-export changes in any way.
Services, clocks and failures answer as they like; the result that is `ok` is followed back to the disk.
-/
namespace RoveMapping.MappingApi
open Resumption LastMaximum
set_option autoImplicit false

inductive Kind where
  | file
  | directory
deriving DecidableEq

structure Node where
  kind : Kind
  mtime : ℕ
  size : ℕ

/-- The entries of the file system by their paths, in the order in which `os.listdir` shows them. -/
abbrev Disk := List (String × Node)

namespace Disk

def isFile (disk : Disk) (path : String) : Bool := (disk.lookup path).any fun node => node.kind = .file

def listdir (disk : Disk) (dir : String) : List String :=
  disk.filterMap fun (path, _) =>
    let name := path.toList.drop (dir.length + 1)
    if path.toList.take (dir.length + 1) = dir.toList ++ ['/'] ∧ '/' ∉ name then some (String.ofList name)
    else none

def stat (disk : Disk) (path : String) (field : Node → ℕ) : Except Exc ℕ :=
  match disk.lookup path with
  | some node => .ok (field node)
  | none => .error (.fileNotFoundError path)

def mtime (disk : Disk) (path : String) : ℕ := (disk.lookup path).elim 0 Node.mtime

end Disk

/-- One run of rtabmap-export, however it ends: the disk it leaves, and where it wrote. -/
structure Exporting where
  after : Disk
  wrote : String → Bool
  utcnow : String

/-- Nothing else changes the disk. -/
def Exporting.Writes (ex : Exporting) (before : Disk) : Prop :=
  ∀ path, ex.wrote path = false → ex.after.lookup path = before.lookup path

structure Answers where
  raised : Option Exc
  other : (op : Op) → Except Exc op.Ans

def diskSem (ex : Exporting) : Semantics api Unit Disk Answers
  | _, .isFile path, _, disk => some (.ok (disk.isFile path), disk)
  | _, .listdir path, choice, disk => some (choice.raised.elim (.ok (disk.listdir path)) .error, disk)
  | _, .getmtime path, choice, disk => some (choice.raised.elim (disk.stat path Node.mtime) .error, disk)
  | _, .getsize path, choice, disk => some (choice.raised.elim (disk.stat path Node.size) .error, disk)
  | _, .utcnow, _, disk => some (.ok ex.utcnow, disk)
  | _, .run cmd, choice, _ => some (choice.other (.run cmd), ex.after)
  | _, op, choice, disk => some (choice.other op, disk)

def anyAnswer (_ : api.Op) (_ : Answers) (_ : Disk) : Prop := True

def Exports (ex : Exporting) (filename : Value) (before : Disk) (result : Result) : Prop :=
  ∃ after, Solo (diskSem ex) anyAnswer () (actionExport filename) before (.ok result) after

def nameOf (ex : Exporting) (filename : Value) : String := exportedName { obliging with utcnow := ex.utcnow } filename

def datedPlys (disk : Disk) : List (String × ℕ) :=
  (plysOf (disk.listdir exportDir)).map fun path => (path, disk.mtime path)

def foundOn (disk : Disk) (filename : String) : Option String :=
  ((candidates filename).find? disk.isFile).or (newest (datedPlys disk))

/-! ## Following a result back -/

section Follow

variable {ex : Exporting} {disk : Disk}

def Stays {α : Type} (disk : Disk) (p : Program api α) (ex : Exporting) (value : α) : Prop :=
  Triple (diskSem ex) (alone anyAnswer) () (· = disk) p (Delivers fun found s => s = disk ∧ found = value)

theorem Stays.bind {α β : Type} {p : Program api α} {f : α → Program api β} {value : α} {Q : β → Disk → Prop}
    (hp : Stays disk p ex value)
    (hf : Triple (diskSem ex) (alone anyAnswer) () (· = disk) (f value) (Delivers Q)) :
    Triple (diskSem ex) (alone anyAnswer) () (· = disk) (p >>= f) (Delivers Q) := by
  refine Triple.bind_delivers hp ?_
  rintro found s hInv ⟨hs, rfl⟩
  exact hf s hInv hs

theorem stays_pure {α : Type} (value : α) : Stays disk (pure value) ex value := Triple.pure fun _ _ h => ⟨h, rfl⟩

theorem stays_isFile (path : String) : Stays disk (ask (.isFile path)) ex (disk.isFile path) := by
  refine alone_perform fun s choice answer t hs _ hSem => ?_
  cases hSem
  cases hs
  exact ⟨rfl, rfl⟩

theorem stays_listdir (path : String) : Stays disk (ask (.listdir path)) ex (disk.listdir path) := by
  refine alone_perform fun s choice answer t hs _ hSem => ?_
  cases hSem
  cases hs
  cases choice.raised with
  | none => exact ⟨rfl, rfl⟩
  | some exc => trivial

theorem stays_getmtime (path : String) : Stays disk (ask (.getmtime path)) ex (disk.mtime path) := by
  refine alone_perform fun s choice answer t hs _ hSem => ?_
  cases hSem
  cases hs
  cases choice.raised with
  | none =>
    simp only [Option.elim_none, Disk.stat, Disk.mtime]
    cases disk.lookup path with
    | none => trivial
    | some node => exact ⟨rfl, rfl⟩
  | some exc => trivial

theorem stays_utcnow : Stays disk (ask .utcnow) ex ex.utcnow := by
  refine alone_perform fun s choice answer t hs _ hSem => ?_
  cases hSem
  exact ⟨hs, rfl⟩

theorem stays_firstFile (paths : List String) : Stays disk (firstFile paths) ex (paths.find? disk.isFile) := by
  induction paths with
  | nil => exact stays_pure none
  | cons path rest ih =>
    refine (stays_isFile path).bind ?_
    rw [List.find?_cons]
    cases disk.isFile path with
    | true => exact stays_pure (some path)
    | false => exact ih

theorem stays_withMtimes (paths : List String) :
    Stays disk (withMtimes paths) ex (paths.map fun path => (path, disk.mtime path)) := by
  induction paths with
  | nil => exact stays_pure []
  | cons path rest ih => exact (stays_getmtime path).bind (ih.bind (stays_pure _))

theorem stays_findExported (filename : String) : Stays disk (findExported filename) ex (foundOn disk filename) := by
  refine (stays_firstFile (candidates filename)).bind ?_
  rw [foundOn]
  cases (candidates filename).find? disk.isFile with
  | some path => exact stays_pure (some path)
  | none => exact (stays_listdir exportDir).bind ((stays_withMtimes _).bind (stays_pure _))

def Reports (disk : Disk) (filename : String) (result : Result) : Prop :=
  result.ok = true → ∃ path, foundOn disk filename = some path ∧ result.path = some path

theorem foundResult_yields (duration : ℚ) (filename : String) :
    (foundResult duration (foundOn disk filename)).Yields (Reports disk filename) := by
  cases hFound : foundOn disk filename with
  | none => exact nofun
  | some path => exact Program.Yields.of_bind fun _ _ => ⟨path, hFound, rfl⟩

theorem resumeAfterExport_yields (result : Result) :
    (resumeAfterExport result).Yields fun answer => answer.ok = result.ok ∧ answer.path = result.path := by
  refine Program.Yields.of_bind ?_
  rintro ⟨ok, msg⟩
  cases ok with
  | false => exact ⟨rfl, rfl⟩
  | true => exact Program.Yields.of_bind fun _ => ⟨rfl, rfl⟩

theorem reports_exported (filename : String) (duration : ℚ) (proc : CompletedProcess) :
    Triple (diskSem ex) (alone anyAnswer) () (· = disk) (exported filename duration proc)
      (Delivers fun result _ => Reports disk filename result) := by
  unfold exported
  split
  · exact Triple.pure fun _ _ _ => nofun
  · exact (stays_findExported filename).bind (alone_yields (foundResult_yields duration filename))

/-- Operations other than the run of rtabmap-export. -/
def Op.Reading : Op → Prop
  | .run _ => False
  | _ => True

theorem keeps_reading {op : Op} (hOp : op.Reading) :
    Triple (diskSem ex) (alone anyAnswer) () (· = disk) (ask op) fun _ s => s = disk := by
  refine alone_perform fun s choice answer t hs _ hSem => ?_
  cases op <;> first | exact hOp.elim | (cases hSem; exact hs)

theorem reports_runExport {before : Disk} (filename : String) :
    Triple (diskSem ex) (alone anyAnswer) () (· = before) (runExport filename)
      (Delivers fun result _ => Reports ex.after filename result) := by
  have hTime : ∀ disk, Triple (diskSem ex) (alone anyAnswer) () (· = disk) (ask .time) fun _ s => s = disk :=
    fun disk => keeps_reading trivial
  have hRun : Triple (diskSem ex) (alone anyAnswer) () (· = before) (ask (.run (exportCmd filename))) fun _ s => s = ex.after := by
    refine alone_perform fun s choice answer t _ _ hSem => ?_
    cases hSem
    rfl
  apply (hTime before).bind
  · intro t0
    apply hRun.attempt.bind_returns
    intro outcome
    match outcome with
    | .error (.fileNotFoundError _) => exact (hTime ex.after).bind (fun t1 => Triple.pure fun _ _ _ => nofun) fun _ _ _ _ => trivial
    | .error (.timeoutExpired _) => exact Triple.pure fun _ _ _ => nofun
    | .error (.typeError _) | .error (.other _) => exact Triple.throw fun _ _ _ => trivial
    | .ok proc => exact (hTime ex.after).bind (fun t1 => reports_exported filename _ proc) fun _ _ _ _ => trivial
  · exact fun _ _ _ _ => trivial

theorem callEmpty_reading (svc : Service) : (callEmpty svc).Uses Op.Reading := by
  refine Program.Uses.bind ⟨trivial, fun _ => Program.uses_ofExcept _⟩ fun available => ?_
  split
  · exact Program.Uses.bind ⟨trivial, fun _ => Program.uses_ofExcept _⟩ fun reply => trivial
  · trivial

theorem keeps_uses {α : Type} {p : Program api α} (hUses : p.Uses Op.Reading) :
    Triple (diskSem ex) (alone anyAnswer) () (· = disk) p fun _ s => s = disk :=
  Triple.of_uses hUses (alone_stable _) fun _ hOp => keeps_reading hOp

theorem stays_keeps {α β : Type} {p : Program api α} {f : α → Program api β} {Q : β → Disk → Prop}
    (hp : Triple (diskSem ex) (alone anyAnswer) () (· = disk) p fun _ s => s = disk)
    (hf : ∀ value, Triple (diskSem ex) (alone anyAnswer) () (· = disk) (f value) (Delivers Q)) :
    Triple (diskSem ex) (alone anyAnswer) () (· = disk) (p >>= f) (Delivers Q) :=
  hp.bind hf fun _ _ _ _ => trivial

theorem stays_requestedName (filename : Value) :
    Stays disk (requestedName filename) ex (requested { obliging with utcnow := ex.utcnow } filename) := by
  have hDefault : Stays disk requestedName.defaultName ex s!"scan_{ex.utcnow}.ply" := stays_utcnow.bind (stays_pure _)
  have hOther : ∀ value : Value, Stays disk
      (if value.truthy then .throw (.typeError "expected str, bytes or os.PathLike object") else requestedName.defaultName)
      ex s!"scan_{ex.utcnow}.ply" := by
    intro value
    split
    · exact Triple.throw fun _ _ _ => trivial
    · exact hDefault
  cases filename with
  | str s =>
    rw [requestedName, requested]
    split
    · exact hDefault
    · exact stays_pure s
  | null => exact hOther .null
  | bool b => exact hOther (.bool b)
  | int n => exact hOther (.int n)
  | float bits => exact hOther (.float bits)
  | list items => exact hOther (.list items)
  | dict items => exact hOther (.dict items)

theorem stays_exportName (filename : Value) : Stays disk (exportName filename) ex (nameOf ex filename) :=
  stays_keeps (keeps_reading trivial) fun _ => (stays_requestedName filename).bind (stays_pure _)

/-- The services and the recorded state do not touch what the export found. -/
theorem reports_actionExport {before : Disk} (filename : Value) :
    Triple (diskSem ex) (alone anyAnswer) () (· = before) (actionExport filename)
      (Delivers fun result _ => Reports ex.after (nameOf ex filename) result) := by
  refine (stays_isFile rtabmapDb).bind ?_
  cases before.isFile rtabmapDb with
  | false => exact Triple.pure fun _ _ _ => nofun
  | true =>
    refine (stays_exportName filename).bind (stays_keeps (keeps_reading trivial) fun state => ?_)
    dsimp only
    split
    · refine stays_keeps (keeps_uses ?_) fun _ => (reports_runExport (nameOf ex filename)).bind_delivers fun result => ?_
      · refine (callEmpty_reading .pause).bind ?_
        rintro ⟨ok, msg⟩
        cases ok with
        | false => trivial
        | true => exact ⟨trivial, fun _ => Program.uses_ofExcept _⟩
      · intro s hInv hReports
        refine (alone_yields (P := fun _ => True) (resumeAfterExport_yields result) s hInv trivial).mono hInv ?_
        rintro (exc | answer) t - hSame
        · trivial
        · obtain ⟨hOk, hPath⟩ := hSame
          intro hAnswer
          rw [hPath]
          exact hReports (hOk ▸ hAnswer)
    · exact reports_runExport (nameOf ex filename)

theorem exports_reports {before : Disk} {filename : Value} {result : Result} (hRun : Exports ex filename before result) :
    Reports ex.after (nameOf ex filename) result := by
  obtain ⟨after, hSolo⟩ := hRun
  exact alone_solo (reports_actionExport filename) rfl hSolo

end Follow

/-! ## Fresh and stale files -/

/-- A file that this call wrote. -/
def Exporting.fresh (ex : Exporting) (path : String) : Bool := ex.wrote path && ex.after.isFile path

/-- An entry of the export directory itself. -/
def Directly (path : String) : Prop := ∃ name : String, '/' ∉ name.toList ∧ path = join exportDir name

/-- A candidate that was a file before hides what is written behind it. -/
def StaleCandidate (ex : Exporting) (before : Disk) (filename : String) : Prop :=
  ∃ front path back, candidates filename = front ++ path :: back ∧ (∀ earlier ∈ front, ex.after.isFile earlier = false) ∧
    before.isFile path = true ∧ ex.wrote path = false

/-- No candidate is there, and the newest entry with a PLY name is no file of this call. -/
def StaleNewest (ex : Exporting) (filename : String) : Prop :=
  (∀ path ∈ candidates filename, ex.after.isFile path = false) ∧
    ∃ entry, Last Prod.snd entry (datedPlys ex.after) ∧ ex.fresh entry.1 = false

section Fresh

variable {ex : Exporting} {before : Disk} {filename : String}

theorem newest_eq_some_iff {path : String} {dated : List (String × ℕ)} :
    newest dated = some path ↔ ∃ entry, Last Prod.snd entry dated ∧ entry.1 = path := by
  have hLatest : newest dated = (latest Prod.snd dated).map Prod.fst := rfl
  rw [hLatest, Option.map_eq_some_iff]
  exact exists_congr fun entry => and_congr_left fun _ => latest_eq_some_iff

theorem isFile_of_writes (hWrites : ex.Writes before) {path : String} (hWrote : ex.wrote path = false) :
    ex.after.isFile path = before.isFile path := by
  rw [Disk.isFile, Disk.isFile, hWrites path hWrote]

theorem StaleCandidate.found (hWrites : ex.Writes before) (h : StaleCandidate ex before filename) :
    ∃ path, (candidates filename).find? ex.after.isFile = some path ∧ ex.wrote path = false := by
  obtain ⟨front, path, back, hSplit, hFront, hBefore, hWrote⟩ := h
  refine ⟨path, ?_, hWrote⟩
  rw [List.find?_eq_some_iff_append, isFile_of_writes hWrites hWrote]
  exact ⟨hBefore, front, back, hSplit, fun earlier hEarlier => by rw [hFront earlier hEarlier]; rfl⟩

theorem staleCandidate_iff (hWrites : ex.Writes before) :
    StaleCandidate ex before filename ↔ ∃ path, (candidates filename).find? ex.after.isFile = some path ∧ ex.wrote path = false := by
  constructor
  · exact StaleCandidate.found hWrites
  · rintro ⟨path, hFind, hWrote⟩
    obtain ⟨hFile, front, back, hSplit, hFront⟩ := List.find?_eq_some_iff_append.mp hFind
    refine ⟨front, path, back, hSplit, fun earlier hEarlier => by simpa using hFront earlier hEarlier, ?_, hWrote⟩
    rwa [← isFile_of_writes hWrites hWrote]

theorem staleNewest_iff : StaleNewest ex filename ↔
    (candidates filename).find? ex.after.isFile = none ∧ ∃ path, newest (datedPlys ex.after) = some path ∧ ex.fresh path = false := by
  rw [StaleNewest, List.find?_eq_none]
  simp only [newest_eq_some_iff, Bool.not_eq_true]
  apply and_congr_right
  intro _
  constructor
  · rintro ⟨entry, hLast, hStale⟩
    exact ⟨entry.1, ⟨entry, hLast, rfl⟩, hStale⟩
  · rintro ⟨_, ⟨entry, hLast, rfl⟩, hStale⟩
    exact ⟨entry, hLast, hStale⟩

theorem fresh_iff_of_found (hWrites : ex.Writes before) {path : String} (hFound : foundOn ex.after filename = some path) :
    ex.fresh path = true ↔ ¬(StaleCandidate ex before filename ∨ StaleNewest ex filename) := by
  rw [staleCandidate_iff hWrites, staleNewest_iff]
  rw [foundOn] at hFound
  cases hFind : (candidates filename).find? ex.after.isFile with
  | some first =>
    rw [hFind, Option.some_or, Option.some.injEq] at hFound
    have hFile : ex.after.isFile first = true := List.find?_some hFind
    simp [Exporting.fresh, ← hFound, hFile]
  | none =>
    rw [hFind, Option.none_or] at hFound
    simp [hFound]

theorem slash_notMem_basename (path : String) : '/' ∉ (basename path).toList := by
  rw [basename, String.toList_ofList, List.mem_reverse]
  intro hMem
  simpa using List.mem_takeWhile_imp hMem

theorem slash_notMem_withPlyExtension {name : String} (hName : '/' ∉ name.toList) : '/' ∉ (withPlyExtension name).toList := by
  rw [withPlyExtension]
  split
  · exact hName
  · rw [String.toList_append, List.mem_append]
    exact not_or.mpr ⟨hName, by decide⟩

theorem slash_notMem_nameOf (ex : Exporting) (filename : Value) : '/' ∉ (nameOf ex filename).toList := by
  rw [nameOf, exportedName]
  exact slash_notMem_withPlyExtension (slash_notMem_basename _)

theorem slash_notMem_stem {name : String} (hName : '/' ∉ name.toList) : '/' ∉ (stem name).toList := by
  rw [stem, String.toList_ofList]
  intro hMem
  exact hName (List.mem_of_mem_dropLast (List.mem_of_mem_dropLast (List.mem_of_mem_dropLast (List.mem_of_mem_dropLast hMem))))

theorem directly_candidate (hName : '/' ∉ filename.toList) {path : String} (hPath : path ∈ candidates filename) :
    Directly path := by
  have hStem := slash_notMem_stem hName
  simp only [candidates, List.mem_cons, List.not_mem_nil, or_false] at hPath
  rcases hPath with rfl | rfl | rfl
  · exact ⟨filename, hName, rfl⟩
  · refine ⟨stem filename ++ "_cloud.ply", ?_, rfl⟩
    rw [String.toList_append, List.mem_append]
    exact not_or.mpr ⟨hStem, by decide⟩
  · refine ⟨stem filename ++ "0.ply", ?_, rfl⟩
    rw [String.toList_append, List.mem_append]
    exact not_or.mpr ⟨hStem, by decide⟩

theorem directly_newest {disk : Disk} {path : String} (hNewest : newest (datedPlys disk) = some path) : Directly path := by
  obtain ⟨entry, hLast, rfl⟩ := newest_eq_some_iff.mp hNewest
  obtain ⟨ply, hPly, rfl⟩ := List.mem_map.mp hLast.mem
  obtain ⟨name, hName, rfl⟩ := List.mem_map.mp hPly
  obtain ⟨⟨_, _⟩, _, hListed⟩ := List.mem_filterMap.mp (List.mem_filter.mp hName).1
  dsimp only at hListed
  split at hListed
  · rename_i hDirect
    cases hListed
    exact ⟨_, by rw [String.toList_ofList]; exact hDirect.2, rfl⟩
  · cases hListed

theorem directly_of_found {disk : Disk} {path : String} (hFound : foundOn disk filename = some path)
    (hName : '/' ∉ filename.toList) : Directly path := by
  rw [foundOn, Option.or_eq_some_iff] at hFound
  rcases hFound with hFind | ⟨-, hNewest⟩
  · exact directly_candidate hName (List.mem_of_find?_eq_some hFind)
  · exact directly_newest hNewest

/-- An export that is reported as complete returns a file of its own exactly where nothing stale is in front of it. -/
theorem export_fresh_iff (ex : Exporting) (before : Disk) (hWrites : ex.Writes before) (filename : Value) (result : Result)
    (hRun : Exports ex filename before result) (hOk : result.ok = true) :
    (∃ path, result.path = some path ∧ ex.fresh path = true ∧ Directly path) ↔
      ¬(StaleCandidate ex before (nameOf ex filename) ∨ StaleNewest ex (nameOf ex filename)) := by
  obtain ⟨path, hFound, hPath⟩ := exports_reports hRun hOk
  have hDirectly : Directly path := directly_of_found hFound (slash_notMem_nameOf ex filename)
  rw [← fresh_iff_of_found hWrites hFound]
  constructor
  · rintro ⟨_, hSame, hFresh, -⟩
    cases hPath.symm.trans hSame
    exact hFresh
  · intro hFresh
    exact ⟨path, hPath, hFresh, hDirectly⟩

end Fresh

/-! ## A scan of the day before -/

def labPath : String := join exportDir "lab.ply"

def labDisk : Disk := [(rtabmapDb, ⟨.file, 1, 1⟩), (labPath, ⟨.file, 1, 5000000⟩)]

def labExport (wrote : Bool) : Exporting := ⟨labDisk, fun path => wrote && path == labPath, "20240102_000000"⟩

def labOther : (op : Op) → Except Exc op.Ans
  | .readState => .ok .paused
  | .waitForService _ => .ok true
  | .callAsync _ => .ok .done
  | .time => .ok 0
  | .run _ => .ok ⟨0, "", ""⟩
  | .isFile _ => .ok true
  | .utcnow => .ok ""
  | .listdir _ => .ok []
  | .getmtime _ | .getsize _ => .ok 0
  | .writeState _ | .resetState | .sleep | .makedirs _ => .ok ()

def labAnswer (op : api.Op) (disk : Disk) : Except Exc (api.Ans op) × Disk :=
  ((diskSem (labExport false) () op ⟨none, labOther⟩ disk).getD (labOther op, disk))

def labResult : Result := ⟨true, "Export complete", some labPath, some 5, some 0⟩

theorem labExport_writes (wrote : Bool) : (labExport wrote).Writes labDisk := fun _ _ => rfl

theorem labExport_exports (wrote : Bool) : Exports (labExport wrote) (.str "lab.ply") labDisk labResult := by
  have hEnd : ((actionExport (.str "lab.ply")).run labAnswer labDisk).1 = .ok labResult := by decide +kernel
  have hRuns : (actionExport (.str "lab.ply")).Runs labAnswer labDisk (.ok labResult) _ _ := Prod.ext hEnd rfl
  have hSem : ∀ op disk, ∃ choice, anyAnswer op choice disk ∧
      diskSem (labExport wrote) () op choice disk = some (labAnswer op disk) := by
    intro op disk
    refine ⟨⟨none, labOther⟩, trivial, ?_⟩
    cases op <;> rfl
  exact ⟨_, Solo.of_runs hSem hRuns⟩

/-- Written in this call, the file of that name is what is returned. -/
theorem export_fresh_iff_written_scan :
    (∃ path, labResult.path = some path ∧ (labExport true).fresh path = true ∧ Directly path) ↔
      ¬(StaleCandidate (labExport true) labDisk (nameOf (labExport true) (.str "lab.ply")) ∨
        StaleNewest (labExport true) (nameOf (labExport true) (.str "lab.ply"))) :=
  export_fresh_iff (labExport true) labDisk (labExport_writes true) (.str "lab.ply") labResult (labExport_exports true) rfl

/-- rtabmap-export writes nothing, and the scan of the day before is returned. -/
theorem export_fresh_stale_scan :
    ¬∀ (ex : Exporting) (before : Disk), ex.Writes before → ∀ (filename : Value) (result : Result),
      Exports ex filename before result → result.ok = true →
        ∃ path, result.path = some path ∧ ex.fresh path = true ∧ Directly path := by
  intro hAlways
  obtain ⟨path, -, hFresh, -⟩ :=
    hAlways (labExport false) labDisk (labExport_writes false) (.str "lab.ply") labResult (labExport_exports false) rfl
  exact absurd hFresh Bool.false_ne_true

end RoveMapping.MappingApi
