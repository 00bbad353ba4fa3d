import RoveMapping.Tuner.ExportSearch

/-! # Whose database a bag run scores

Success is read off the exit code of the bag and the presence of `rtabmap.db`. A database that was
in the output directory before the call passes for the output of the call, and so does a trajectory
that was exported before, where the exporter writes none.
-/
namespace RoveMapping.Tuner.TrialRunner
open Resumption PosixPath
set_option autoImplicit false

structure BagCall where
  bagPath : String
  overrides : List (String × Template.Override)
  dir : Path
  env : EnvConfig
  opts : Options

def BagCall.program (call : BagCall) : Program runner (BagRunResult ℚ) :=
  runSingleBag call.bagPath call.overrides call.dir call.env call.opts

/-- No name is that of a file and of a directory. -/
def Apart (w : World) : Prop := ∀ place name, name :: place ∈ w.dirs → w.files place name = none

/-- Before the call: what the files hold is the work of earlier runs. -/
structure Before (w : World) : Prop where
  running : w.procs.exited = none
  unscored : w.scored = none
  earlier : ∀ place name content, w.files place name = some content → content.writer = none
  apart : Apart w

def OwnOutput (parses : List Char → Bool) (call : BagCall) (w : World) : Prop :=
  ∀ pool result, Reaches (alone parses _).next (fun _ _ => True) ⟨w, fun _ => call.program⟩ pool →
    (pool.thread ()).outcome? = some (.ok result) → result.success = true → pool.shared.scored ≠ some none

/-- A successful run was scored on a database written during the call. -/
def ScoredOnOwnOutput : Prop := ∀ parses call w, Before w → OwnOutput parses call w

/-- No directory of this name stands in the output directory, or will when that is made. -/
def Free (dir : Path) (w : World) (name : String) : Prop := name :: dir.place ∉ (w.makeDir dir).dirs

def HasDatabase (dir : Path) (w : World) : Prop := ∃ writer, w.files dir.place "rtabmap.db" = some (.database writer)

/-- What the search for the exported trajectory finds is a file that is there already. -/
def HasTrajectory (dir : Path) (w : World) : Prop :=
  ∃ name, (w.makeDir dir).found dir.place = some name ∧ (w.files dir.place name).isSome

/-- Earlier output that a run can take for its own. -/
def Stale (dir : Path) (w : World) : Prop :=
  HasDatabase dir w ∧ Free dir w "trajectory_poses.txt" ∨ HasTrajectory dir w

/-- A file in the place of a directory; the database of a process that lives may still go. -/
def Obstructs (w : World) (place : Place) : Prop :=
  w.isFile place = true ∧ ∀ p, w.procs.alive p = true → place ≠ "rtabmap.db" :: w.procs.outputDir p

/-- The output directory cannot be made, or one of the files of the run cannot be written. -/
def Blocked (dir : Path) (w : World) : Prop :=
  (∃ place ∈ dir.trail, Obstructs w place) ∨ ∃ name ∈ "rtabmap.db" :: ownFiles, ¬Free dir w name

/-- No earlier output can be taken for that of the call. -/
def Unmistakable (parses : List Char → Bool) (call : BagCall) (w : World) : Prop :=
  ¬Stale call.dir w ∨ call.opts.dryRun = true ∨ w.bags call.bagPath = false ∨
    (∀ rendered, Template.render parses call.overrides Template.launchText ≠ .ok rendered) ∨ Blocked call.dir w

section Own

variable {parses : List Char → Bool} {dir : Path} {start : World}

def Own (dir : Path) (name : String) (w : World) : Prop := ∃ p, w.files dir.place name = some (.trajectory (some p))

/-- Where no database was at hand, what there is now comes from the call or is as it was. -/
structure FreshFiles (dir : Path) (start w : World) : Prop where
  database : ∀ writer, w.files dir.place "rtabmap.db" = some (.database writer) → writer.isSome
  exports : ∀ name, exportName name = true → Own dir name w ∨ w.files dir.place name = start.files dir.place name

structure Output (dir : Path) (start w : World) : Prop where
  apart : Apart w
  dirs : start.dirs ⊆ w.dirs
  fresh : ¬HasDatabase dir start → FreshFiles dir start w

/-- The processes write and remove databases, and nothing else. -/
def outputRules (dir : Path) (start : World) : Rules runner Unit World Env where
  inv := Output dir start
  rely _ w w' := w'.scored = w.scored ∧ w'.bags = w.bags ∧ w'.dirs = w.dirs ∧
    (∀ name, name ≠ "rtabmap.db" → w'.files dir.place name = w.files dir.place name) ∧
    ∀ place, Obstructs w place → Obstructs w' place
  demand _ _ _ := True
  allowed _ _ _ _ := True
  refl _ _ := ⟨rfl, rfl, rfl, fun _ _ => rfl, fun _ h => h⟩
  trans _ _ _ _ h h' := ⟨h'.1.trans h.1, h'.2.1.trans h.2.1, h'.2.2.1.trans h.2.2.1,
    fun name hName => (h'.2.2.2.1 name hName).trans (h.2.2.2.1 name hName),
    fun place hPlace => h'.2.2.2.2 place (h.2.2.2.2 place hPlace)⟩

/-! ## What an operation keeps -/

theorem apart_makeDir {w : World} {dir : Path} (hApart : Apart w) (hClear : ¬w.obstructed dir = true) : Apart (w.makeDir dir) := by
  intro place name hDir
  rcases List.mem_append.mp hDir with hTrail | hDir
  · rw [Bool.not_eq_true, World.obstructed, List.any_eq_false] at hClear
    simpa [World.isFile] using hClear _ hTrail
  · exact hApart place name hDir

theorem apart_put {w : World} {place : Place} {name : String} {content : Content} (hApart : Apart w)
    (hFree : name :: place ∉ w.dirs) : Apart (w.put place name content) := by
  intro place' name' hDir
  rw [World.put_files, if_neg, hApart place' name' hDir]
  rintro ⟨rfl, rfl⟩
  exact hFree hDir

theorem apart_putExports {w : World} {place : Place} {names : List String} {writer : Option ProcId} (hApart : Apart w) :
    Apart (w.putExports place names writer) := by
  intro place' name' hDir
  rw [World.putExports_files, if_neg, hApart place' name' hDir]
  rintro ⟨rfl, _, _, hFree⟩
  exact hFree hDir

theorem apart_of_bag {op : Op} {env : Env} {w w' : World} {r : Except Exc op.Ans} (hOp : op.OfBag dir) (hApart : Apart w)
    (h : effect parses (.worker 0) op env w = some (r, w')) : Apart w' := by
  cases op with
  | setShutdown | copyActive | osExit | iterdir | rmtree =>
    rcases hOp with hOp | (hOp | hOp | ⟨_, _, hOp⟩) | hOp <;> cases hOp
  | register | unregister =>
    cases h
    exact hApart
  | mkdir dir' =>
    simp only [effect] at h
    grind [apart_makeDir]
  | render overrides dir' =>
    simp only [effect] at h
    grind [apart_makeDir, apart_put]
  | exportTrajectory dir' =>
    simp only [effect] at h
    grind [apart_putExports]
  | write dir' name content =>
    simp only [effect] at h
    grind [apart_put]
  | copyTrajectory dir' name =>
    simp only [effect] at h
    grind [apart_put]
  | _ =>
    simp only [effect] at h
    grind [Apart]

theorem exports_of_bag {op : Op} {env : Env} {w w' : World} {r : Except Exc op.Ans} (hOp : op.OfBag dir)
    (h : effect parses (.worker 0) op env w = some (r, w')) {name : String} (hName : exportName name = true) :
    w'.files dir.place name = w.files dir.place name ∨
      ∃ writer, w.files dir.place "rtabmap.db" = some (.database writer) ∧
        w'.files dir.place name = some (.trajectory writer) := by
  have hNotOwn : name ∉ ownFiles := by
    have hNames : ∀ name ∈ ownFiles, exportName name = false := by decide +kernel
    exact fun hOwn => absurd (hName.symm.trans (hNames name hOwn)) (by decide)
  by_cases hExport : op = .exportTrajectory dir
  · subst hExport
    simp only [effect, Option.some.injEq] at h
    split at h <;> cases h
    · rename_i writer hDatabase
      rw [World.putExports_files]
      split
      · exact .inr ⟨writer, hDatabase, rfl⟩
      · exact .inl rfl
    · exact .inl rfl
  · exact .inl (files_of_bag hOp h dir.place hNotOwn fun _ => hExport)

theorem output_of_bag {op : Op} {env : Env} {w w' : World} {r : Except Exc op.Ans} (hOp : op.OfBag dir)
    (hInv : Output dir start w) (h : effect parses (.worker 0) op env w = some (r, w')) : Output dir start w' where
  apart := apart_of_bag hOp hInv.apart h
  dirs := by
    rcases dirs_of_bag hOp h with hSame | hMade
    · rw [hSame]
      exact hInv.dirs
    · rw [hMade]
      exact List.subset_append_of_subset_right _ hInv.dirs
  fresh hNone := by
    obtain ⟨hDatabase, hExports⟩ := hInv.fresh hNone
    refine ⟨fun writer hWriter => hDatabase writer ?_, fun name hName => ?_⟩
    · have hSame : w'.files dir.place "rtabmap.db" = w.files dir.place "rtabmap.db" :=
        files_of_bag hOp h dir.place (by decide) fun hExport => absurd hExport (by decide +kernel)
      rwa [hSame] at hWriter
    · rcases exports_of_bag hOp h hName with hSame | ⟨writer, hWriter, hNew⟩
      · rw [Own, hSame]
        exact hExports name hName
      · obtain ⟨p, rfl⟩ := Option.isSome_iff_exists.mp (hDatabase writer hWriter)
        exact .inl ⟨p, hNew⟩

end Own
end RoveMapping.Tuner.TrialRunner
