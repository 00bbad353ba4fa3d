import RoveMapping.Library.Possible
import RoveMapping.Tuner.OwnOutput

/-! # The output of an earlier run

Where a bag run can take earlier output for its own, some environment lets the whole call pass over it
and has it scored.
-/
namespace RoveMapping.Tuner.TrialRunner
open Resumption PosixPath
set_option autoImplicit false

section Led

variable {parses : List Char → Bool} {ρ : Type} {call : BagCall} {armed : Prop} {w w' : World}

/-- The search would find a file that is not the work of this call. -/
def Lures (dir : Path) (w : World) : Prop := ∃ name content,
  w.found dir.place = some name ∧ w.files dir.place name = some content ∧ content.writer = none

/-- The call goes on, over the earlier output. -/
structure Going (call : BagCall) (armed : Prop) (w : World) : Prop where
  running : w.procs.exited = none
  bag : w.bags call.bagPath = true
  clear : w.obstructed call.dir = false
  free : ∀ name ∈ "rtabmap.db" :: ownFiles, Free call.dir w name
  stale : w.files call.dir.place "rtabmap.db" = some (.database none) ∧ Free call.dir w "trajectory_poses.txt" ∨
    Lures call.dir (w.makeDir call.dir)
  database : armed → HasDatabase call.dir w

theorem not_exportName_of_run {name : String} (hName : name ∈ "rtabmap.db" :: ownFiles) : exportName name = false := by
  have hNames : ∀ name ∈ "rtabmap.db" :: ownFiles, exportName name = false := by decide +kernel
  exact hNames name hName

theorem exists_put {place : Place} {name other : String} {content : Content} (hNe : other ≠ name) :
    (w.put place name content).exists? place other = w.exists? place other := by
  rw [World.exists?, World.exists?, World.put_files, if_neg fun h => hNe h.2, World.put_dirs]

theorem Lures.put {dir : Path} {name : String} {content : Content} (hName : name ∈ "rtabmap.db" :: ownFiles)
    (h : Lures dir w) : Lures dir (w.put dir.place name content) := by
  obtain ⟨found, file, hFound, hFile, hWriter⟩ := h
  have hNe (other : String) (hOther : exportName other = true) : other ≠ name := by
    rintro rfl
    exact absurd (hOther.symm.trans (not_exportName_of_run hName)) (by decide)
  refine ⟨found, file, World.found_congr (fun other hOther => exists_put (hNe other hOther)) hFound, ?_, hWriter⟩
  rwa [World.put_files, if_neg fun h => hNe found (World.exists_of_found hFound).1 h.2]

theorem Going.put (h : Going call armed w) {name : String} (hName : name ∈ ownFiles) (content : Content) :
    Going call armed (w.put call.dir.place name content) where
  running := h.running
  bag := h.bag
  clear := (World.obstructed_put fun hTrail =>
    h.free name (List.mem_cons_of_mem _ hName) (List.mem_append_left _ hTrail)).trans h.clear
  free := h.free
  stale := by
    have hNe : "rtabmap.db" ≠ name := by
      rintro rfl
      exact absurd hName (by decide)
    rw [World.put_files, if_neg fun h => hNe h.2]
    exact h.stale.imp_right (Lures.put (List.mem_cons_of_mem _ hName))
  database hArmed := by
    obtain ⟨writer, hWriter⟩ := h.database hArmed
    refine ⟨writer, ?_⟩
    rw [World.put_files, if_neg, hWriter]
    rintro ⟨_, rfl⟩
    exact absurd hName (by decide)

theorem mem_makeDir {dir : Path} {place : Place} : place ∈ ((w.makeDir dir).makeDir dir).dirs ↔ place ∈ (w.makeDir dir).dirs := by
  simp only [World.makeDir_dirs, List.mem_append]
  tauto

theorem Going.makeDir (h : Going call armed w) : Going call armed (w.makeDir call.dir) where
  running := h.running
  bag := h.bag
  clear := h.clear
  free name hName hDir := h.free name hName (mem_makeDir.mp hDir)
  stale := by
    refine h.stale.imp (fun h => ⟨h.1, fun hDir => h.2 (mem_makeDir.mp hDir)⟩) ?_
    rintro ⟨name, content, hFound, hFile, hWriter⟩
    refine ⟨name, content, World.found_congr (fun other _ => ?_) hFound, hFile, hWriter⟩
    simp only [World.exists?, mem_makeDir, World.makeDir_files]
  database := h.database

theorem Going.procs {ps : Procs} (h : Going call armed w) (hExited : ps.exited = w.procs.exited) :
    Going call armed { w with procs := ps } :=
  ⟨hExited.trans h.running, h.bag, h.clear, h.free, h.stale, h.database⟩

theorem can_ask {op : Op} {Q : Except Exc op.Ans → World → Prop} {answer : Except Exc op.Ans} (env : Env)
    (hRunning : w.procs.exited = none) (hEffect : effect parses (.worker 0) op env w = some (answer, w')) (hQ : Q answer w') :
    Can (alone parses ρ) () (ask op) Q w := by
  apply Can.perform env .refl _ hQ
  simpa [alone, semAlone, sem, hRunning] using hEffect

theorem not_mem_dirs_of_free {dir : Path} {name : String} (h : Free dir w name) : name :: dir.place ∉ w.dirs :=
  fun hDir => h (List.mem_append_right _ hDir)

theorem can_write (h : Going call armed w) {name : String} (hName : name ∈ ownFiles) (content : Content) :
    Can (alone parses ρ) () (ask (.write call.dir name content)) (Returns fun _ => Going call armed) w := by
  have hEffect : effect parses (.worker 0) (.write call.dir name content) obliging w =
      some (.ok (), w.put call.dir.place name content) := by
    simp [effect, obliging, not_mem_dirs_of_free (h.free name (List.mem_cons_of_mem _ hName))]
  exact can_ask obliging h.running hEffect (h.put hName content)

theorem can_sleep (h : Going call armed w) (seconds : ℚ) :
    Can (alone parses ρ) () (ask (.sleep seconds)) (Returns fun _ w' => w' = w) w := can_ask obliging h.running rfl rfl

theorem can_time (h : Going call armed w) : Can (alone parses ρ) () (ask .time) (Returns fun _ w' => w' = w) w :=
  can_ask obliging h.running rfl rfl

theorem can_popen (h : Going call armed w) (cmd : List String) :
    Can (alone parses ρ) () (ask (.popen cmd call.dir)) (Returns fun p w' => Going call armed w' ∧
      w'.procs.alive p = true ∧ w'.procs.outputDir p = call.dir.place) w :=
  can_ask obliging h.running rfl ⟨h.procs rfl, Function.update_self _ _ _, Function.update_self _ _ _⟩

theorem can_register (h : Going call armed w) (p : ProcId) :
    Can (alone parses ρ) () (ask (.register p)) (Returns fun _ w' => Going call armed w' ∧ w'.procs.alive = w.procs.alive) w :=
  can_ask obliging h.running rfl ⟨h.procs rfl, rfl⟩

theorem can_unregister (h : Going call armed w) (p : ProcId) :
    Can (alone parses ρ) () (ask (.unregister p)) (Returns fun _ w' => Going call armed w' ∧
      w'.procs.alive = w.procs.alive ∧ w'.procs.returncode = w.procs.returncode) w :=
  can_ask obliging h.running rfl ⟨h.procs rfl, rfl, rfl⟩

theorem can_poll (h : Going call armed w) (p : ProcId) :
    Can (alone parses ρ) () (ask (.poll p))
      (Returns fun code w' => w' = w ∧ code = if w.procs.alive p then none else some (w.procs.returncode p)) w :=
  can_ask obliging h.running rfl ⟨rfl, rfl⟩

theorem drifts_exits (M : Machine runner Unit World Env Empty Event ρ) (hEnv : M.env = onEvent) (p : ProcId)
    (h : Going call armed w) : ∃ w', Drifts M w w' ∧ Going call armed w' ∧ w'.procs.alive p = false ∧
      (w.procs.alive p = true → w'.procs.returncode p = 0) := by
  by_cases hAlive : w.procs.alive p = true
  · refine ⟨{ w with procs := w.procs.kill p 0 }, .single ⟨.exits p 0, ?_⟩, h.procs rfl, ?_, fun _ => ?_⟩
    · simp [hEnv, onEvent, hAlive]
    · simp [Procs.kill]
    · simp [Procs.kill]
  · exact ⟨w, .refl, h, by simpa using hAlive, fun h => absurd h hAlive⟩

/-- The launch writes a database, unless the earlier one is to be scored. -/
theorem drifts_writes (M : Machine runner Unit World Env Empty Event ρ) (hEnv : M.env = onEvent) {p : ProcId}
    (h : Going call False w) (hAlive : w.procs.alive p = true) (hDir : w.procs.outputDir p = call.dir.place) :
    ∃ w', Drifts M w w' ∧ Going call True w' ∧ w'.procs = w.procs := by
  rcases h.stale with hDatabase | hLures
  · exact ⟨w, .refl, ⟨h.running, h.bag, h.clear, h.free, .inl hDatabase, fun _ => ⟨none, hDatabase.1⟩⟩, rfl⟩
  have hFree := h.free "rtabmap.db" List.mem_cons_self
  refine ⟨w.put call.dir.place "rtabmap.db" (.database (some p)), .single ⟨.writesDatabase p, ?_⟩, ?_, rfl⟩
  · simp [hEnv, onEvent, hAlive, hDir, not_mem_dirs_of_free hFree]
  · have hClear : (w.put call.dir.place "rtabmap.db" (.database (some p))).obstructed call.dir = false :=
      (World.obstructed_put fun hTrail => hFree (List.mem_append_left _ hTrail)).trans h.clear
    exact ⟨h.running, h.bag, hClear, h.free, .inr (Lures.put List.mem_cons_self hLures),
      fun _ => ⟨some p, by simp [World.put_files]⟩⟩

theorem can_wait (h : Going call armed w) {p : ProcId} (hAlive : w.procs.alive p = true) (timeout : Option ℚ) :
    Can (alone parses ρ) () (ask (.wait p timeout))
      (Returns fun _ w' => Going call armed w' ∧ w'.procs.alive p = false ∧ w'.procs.returncode p = 0) w := by
  obtain ⟨w', hDrifts, hGoing, hDead, hCode⟩ := drifts_exits (alone parses ρ) rfl p h
  have hSem : sem parses (.worker 0) (.wait p timeout) obliging w' = some (.ok (w'.procs.returncode p), w') := by
    simp [sem, hGoing.running, effect, hDead]
  exact Can.perform obliging hDrifts hSem ⟨hGoing, hDead, hCode hAlive⟩

theorem can_terminate (h : Going call armed w) (p : ProcId) (timeout : ℚ) :
    Can (alone parses ρ) () (terminateProcessGroup p timeout) (Returns fun _ => Going call armed) w := by
  obtain ⟨w', hDrifts, hGoing, hDead, _⟩ := drifts_exits (alone parses ρ) rfl p h
  have hSem : sem parses (.worker 0) (.getpgid p) obliging w' = some (.error .processLookupError, w') := by
    simp [sem, hGoing.running, effect, hDead, lookupFailure, obliging]
  have hLost : Can (alone parses ρ) () (ask (.getpgid p)) (fun r w' => r = .error .processLookupError ∧ Going call armed w') w :=
    Can.perform obliging hDrifts hSem ⟨rfl, hGoing⟩
  apply hLost.attempt.bind_returns
  rintro r w'' ⟨rfl, hGoing⟩
  exact hGoing

theorem can_playBag (h : Going call armed w) (bagCmd : List String) :
    Can (alone parses ρ) () (playBag call.opts call.dir bagCmd)
      (Returns fun playback w' => playback = ⟨false, 0⟩ ∧ Going call armed w') w := by
  apply (can_write h (by decide) .log).bind_returns
  intro _ w₁ h₁
  apply (can_popen h₁ bagCmd).bind_returns
  rintro bagProc w₂ ⟨h₂, hAlive, _⟩
  apply (can_register h₂ bagProc).bind_returns
  rintro _ w₃ ⟨h₃, hSame⟩
  apply (can_wait h₃ (hSame ▸ hAlive) (call.opts.maxBagDurationS.map (·.1))).attempt.bind_returns
  rintro (exc | code) w₄ hw₄
  · exact hw₄.elim
  obtain ⟨h₄, hDead, hCode⟩ := hw₄
  apply (can_unregister h₄ bagProc).bind_returns
  rintro _ w₅ ⟨h₅, hAlive', hCode'⟩
  apply (can_poll h₅ bagProc).bind_returns
  rintro returncode w₆ ⟨rfl, rfl⟩
  exact ⟨by simp [hAlive', hCode', hDead, hCode], h₅⟩

theorem can_launchAndPlay (h : Going call False w) (launchCmd bagCmd : List String) (start : ℚ) :
    Can (alone parses ρ) () (launchAndPlay call.opts call.dir call.bagPath launchCmd bagCmd start)
      (Returns fun r w' => r = .inr ⟨false, 0⟩ ∧ Going call True w') w := by
  apply (can_write h (by decide) .log).bind_returns
  intro _ w₁ h₁
  apply (can_popen h₁ launchCmd).bind_returns
  rintro launchProc w₂ ⟨h₂, hAlive, hDir⟩
  have hSupervise : Can (alone parses ρ) () (supervise call.opts call.dir call.bagPath bagCmd start launchProc)
      (Returns fun r w' => r = .inr ⟨false, 0⟩ ∧ Going call True w') w₂ := by
    obtain ⟨w₃, hDrifts, h₃, hProcs⟩ := drifts_writes (alone parses ρ) rfl h₂ hAlive hDir
    have hRegister : Can (alone parses ρ) () (ask (.register launchProc))
        (Returns fun _ w' => Going call True w' ∧ w'.procs.alive launchProc = true) w₂ := by
      have hSem : sem parses (.worker 0) (.register launchProc) obliging w₃ =
          some (.ok (), { w₃ with procs := w₃.procs.register (.worker 0) launchProc }) := by
        simp [sem, h₃.running, effect]
      exact Can.perform obliging hDrifts hSem ⟨h₃.procs rfl, by rw [hProcs]; exact hAlive⟩
    apply hRegister.bind_returns
    rintro _ w₄ ⟨h₄, hAlive₄⟩
    apply (can_sleep h₄ _).bind_returns
    rintro _ _ rfl
    apply (can_poll h₄ launchProc).bind_returns
    rintro code _ ⟨rfl, rfl⟩
    rw [hAlive₄, if_pos rfl]
    apply (can_playBag h₄ bagCmd).bind_returns
    rintro playback w₅ ⟨rfl, h₅⟩
    apply (can_sleep h₅ _).bind_returns
    rintro _ _ rfl
    apply (can_terminate h₅ launchProc _).bind_returns
    intro _ w₆ h₆
    apply (can_unregister h₆ launchProc).bind_returns
    rintro _ w₇ ⟨h₇, _⟩
    exact ⟨rfl, h₇⟩
  apply hSupervise.attempt.bind_returns
  rintro (exc | r) w₃ hw₃
  · exact hw₃.elim
  · obtain ⟨rfl, h₃⟩ := hw₃
    exact ⟨rfl, h₃⟩

/-! ## Scoring -/

theorem can_fileExists {dir : Path} {name : String} (hRunning : w.procs.exited = none) :
    Can (alone parses ρ) () (ask (.fileExists dir name))
      (Returns fun answer w' => answer = w.exists? dir.place name ∧ w' = w) w := can_ask obliging hRunning rfl ⟨rfl, rfl⟩

theorem can_findExportOutput {dir : Path} {name : String} (hRunning : w.procs.exited = none)
    (hFound : w.found dir.place = some name) :
    Can (alone parses ρ) () (findExportOutput dir) (Returns fun output w' => output = some name ∧ w' = w) w := by
  unfold World.found at hFound
  apply (can_fileExists hRunning).bind_returns
  rintro poses w ⟨rfl, rfl⟩
  split at hFound
  · rename_i hPoses
    rw [if_pos hPoses]
    exact ⟨hFound, rfl⟩
  rename_i hPoses
  rw [if_neg hPoses]
  apply (can_fileExists hRunning).bind_returns
  rintro plain w ⟨rfl, rfl⟩
  split at hFound
  · rename_i hPlain
    rw [if_pos hPlain]
    exact ⟨hFound, rfl⟩
  rename_i hPlain
  rw [if_neg hPlain]
  have hGlob : Can (alone parses ρ) () (ask (.globPoses dir))
      (Returns fun candidates w' => candidates = w.candidates dir.place ∧ w' = w) w := can_ask obliging hRunning rfl ⟨rfl, rfl⟩
  apply hGlob.bind_returns
  rintro candidates _ ⟨rfl, rfl⟩
  exact ⟨hFound, rfl⟩

/-- The exporter ends well, and what is found is not the work of this call. -/
theorem can_exportTrajectory (h : Going call True w) :
    Can (alone parses ρ) () (ask (.exportTrajectory call.dir)) (Returns fun r w' => r = .ok () ∧
      w'.procs = w.procs ∧ w'.dirs = (w.makeDir call.dir).dirs ∧ Lures call.dir w') (w.makeDir call.dir) := by
  rcases h.stale with ⟨hDatabase, hFree⟩ | hLures
  · have hEffect : effect parses (.worker 0) (.exportTrajectory call.dir) obliging (w.makeDir call.dir) =
        some (.ok (.ok ()), (w.makeDir call.dir).putExports call.dir.place ["trajectory_poses.txt"] none) := by
      simp [effect, hDatabase, obliging]
    refine can_ask obliging h.running hEffect ⟨rfl, rfl, rfl, "trajectory_poses.txt", .trajectory none, ?_⟩
    have hFile : ((w.makeDir call.dir).putExports call.dir.place ["trajectory_poses.txt"] none).files call.dir.place
        "trajectory_poses.txt" = some (.trajectory none) := by
      rw [World.putExports_files, if_pos ⟨rfl, List.mem_singleton.mpr rfl, by decide, hFree⟩]
    exact ⟨if_pos (by simp [World.exists?, hFile]), hFile, rfl⟩
  · obtain ⟨writer, hWriter⟩ := h.database trivial
    -- this version of the exporter writes elsewhere
    let env : Env := { obliging with exports := [] }
    have hNone : (w.makeDir call.dir).putExports call.dir.place [] writer = w.makeDir call.dir := by
      simp only [World.putExports, List.filter_nil, List.map_nil, List.nil_append, Function.update_eq_self]
    have hEffect : effect parses (.worker 0) (.exportTrajectory call.dir) env (w.makeDir call.dir) =
        some (.ok (.ok ()), w.makeDir call.dir) := by
      simp only [effect, World.makeDir_files, hWriter, env, obliging, hNone]
    exact can_ask env h.running hEffect ⟨rfl, rfl, rfl, hLures⟩

theorem can_trajectoryStats (h : Going call True w) :
    Can (alone parses ρ) () (trajectoryStats call.dir) (Returns fun _ w' => w'.procs = w.procs ∧
      w'.dirs = (w.makeDir call.dir).dirs ∧ w'.scored = some none) (w.makeDir call.dir) := by
  obtain ⟨writer, hWriter⟩ := h.database trivial
  have hRunning : (w.makeDir call.dir).procs.exited = none := h.running
  apply (can_fileExists hRunning).bind_returns
  rintro found w' ⟨rfl, hw'⟩
  subst hw'
  rw [if_pos (by simp [World.exists?, hWriter])]
  have hExport : Can (alone parses ρ) () (exportTumTrajectory call.dir) (Returns fun r w' => r = .ok () ∧
      w'.procs = w.procs ∧ w'.dirs = (w.makeDir call.dir).dirs ∧
      ∃ content, w'.files call.dir.place "trajectory.tum" = some content ∧ content.writer = none) (w.makeDir call.dir) := by
    apply (can_exportTrajectory h).bind_returns
    rintro r w₁ ⟨rfl, hProcs, hDirs, name, content, hFound, hFile, hNone⟩
    have hRunning : w₁.procs.exited = none := by
      rw [hProcs]
      exact h.running
    apply (can_findExportOutput hRunning hFound).bind_returns
    rintro output w₁ ⟨rfl, rfl⟩
    have hFree : "trajectory.tum" :: call.dir.place ∉ w₁.dirs := by
      rw [hDirs]
      exact h.free _ (by decide)
    have hEffect : effect parses (.worker 0) (.copyTrajectory call.dir name) obliging w₁ =
        some (.ok (.ok ()), w₁.put call.dir.place "trajectory.tum" content) := by
      simp [effect, hFile, hFree]
    exact can_ask obliging hRunning hEffect ⟨rfl, hProcs, hDirs, content, by simp [World.put_files], hNone⟩
  apply hExport.bind_returns
  rintro r w₁ ⟨rfl, hProcs, hDirs, content, hTum, hNone⟩
  have hRunning : w₁.procs.exited = none := by
    rw [hProcs]
    exact h.running
  have hStats : Can (alone parses ρ) () (ask (.computeStats call.dir)) (Returns fun _ w' => w'.procs = w.procs ∧
      w'.dirs = (w.makeDir call.dir).dirs ∧ w'.scored = some none) w₁ := by
    have hEffect := effect.eq_def parses (.worker 0) (.computeStats call.dir) obliging w₁
    exact can_ask obliging hRunning hEffect ⟨hProcs, hDirs, by simp [hTum, hNone]⟩
  apply hStats.bind_returns
  rintro stats w₂ hw₂
  exact hw₂

theorem can_judge (h : Going call True w) (start : ℚ) :
    Can (alone parses ρ) () (judge call.opts call.dir call.bagPath start ⟨false, 0⟩)
      (Returns fun result w' => result.success = true ∧ w'.scored = some none) w := by
  apply (can_time h).bind_returns
  rintro now w rfl
  obtain ⟨writer, hWriter⟩ := h.database trivial
  apply (can_fileExists h.running).bind_returns
  rintro found w ⟨rfl, rfl⟩
  rw [if_pos (by simp [World.exists?, hWriter])]
  have hScore : Can (alone parses ρ) () (scoreRun call.dir) (Returns fun _ w' => w'.scored = some none) w := by
    have hMkdir : Can (alone parses ρ) () (ask (.mkdir call.dir)) (Returns fun _ w' => w' = w.makeDir call.dir) w := by
      have hEffect : effect parses (.worker 0) (.mkdir call.dir) obliging w = some (.ok (), w.makeDir call.dir) := by
        simp [effect, obliging, h.clear]
      exact can_ask obliging h.running hEffect rfl
    apply hMkdir.bind_returns
    rintro _ _ rfl
    apply (can_trajectoryStats h).bind_returns
    rintro outcome w₁ ⟨hProcs, hDirs, hScored⟩
    have hFree : "metrics.json" :: call.dir.place ∉ w₁.dirs := by
      rw [hDirs]
      exact h.free _ (by decide)
    have hRunning : w₁.procs.exited = none := by
      rw [hProcs]
      exact h.running
    have hWrite {content : Content} : Can (alone parses ρ) () (ask (.write call.dir "metrics.json" content))
        (Returns fun _ w' => w'.scored = some none) w₁ := by
      have hEffect : effect parses (.worker 0) (.write call.dir "metrics.json" content) obliging w₁ =
          some (.ok (), w₁.put call.dir.place "metrics.json" content) := by
        simp [effect, obliging, hFree]
      exact can_ask obliging hRunning hEffect hScored
    apply hWrite.bind_returns
    exact fun _ w₂ hw₂ => hw₂
  apply hScore.bind_returns
  rintro score w₁ hScored
  exact ⟨rfl, hScored⟩

/-! ## The call -/

/-- Databases that stand in the way of the output directory may go before it is made. -/
theorem drifts_clear (M : Machine runner Unit World Env Empty Event ρ) (hEnv : M.env = onEvent) (trail : List Place)
    (hClear : ∀ place ∈ trail, ¬Obstructs w place) : ∃ w', Drifts M w w' ∧ (∀ place ∈ trail, w'.isFile place = false) ∧
      (∀ place, w'.isFile place = true → w.isFile place = true) ∧ w'.procs = w.procs ∧ w'.bags = w.bags ∧
      w'.dirs = w.dirs ∧
      ∀ place name, name ≠ "rtabmap.db" ∨ name :: place ∉ trail → w'.files place name = w.files place name := by
  induction trail with
  | nil => exact ⟨w, .refl, by simp, fun _ h => h, rfl, rfl, rfl, fun _ _ _ => rfl⟩
  | cons first rest ih =>
    obtain ⟨w₁, hDrifts, hRest, hLess, hProcs, hBags, hDirs, hFiles⟩ :=
      ih fun place hPlace => hClear place (List.mem_cons_of_mem _ hPlace)
    have hFiles' : ∀ place name, name ≠ "rtabmap.db" ∨ name :: place ∉ first :: rest →
        w₁.files place name = w.files place name := fun place name hName =>
      hFiles place name (hName.imp_right fun hNotMem hMem => hNotMem (List.mem_cons_of_mem _ hMem))
    by_cases hFile : w₁.isFile first = true
    · have hRemovable := hClear first List.mem_cons_self
      simp only [Obstructs, hLess first hFile, true_and, not_forall, not_not] at hRemovable
      obtain ⟨p, hAlive, rfl⟩ := hRemovable
      refine ⟨w₁.removeFile (w.procs.outputDir p) "rtabmap.db", hDrifts.tail ⟨.removesDatabase p, ?_⟩, ?_, ?_, hProcs,
        hBags, hDirs, ?_⟩
      · simp [hEnv, onEvent, hProcs, hAlive]
      · intro place hPlace
        rw [World.isFile_removeFile]
        rcases List.mem_cons.mp hPlace with rfl | hPlace
        · simp
        · simp [hRest place hPlace]
      · intro place hPlace
        rw [World.isFile_removeFile, Bool.and_eq_true] at hPlace
        exact hLess place hPlace.1
      · intro place name hName
        rw [World.removeFile_files, if_neg, hFiles' place name hName]
        rintro ⟨rfl, rfl⟩
        exact hName.elim (fun hNe => hNe rfl) fun hNotMem => hNotMem List.mem_cons_self
    · refine ⟨w₁, hDrifts, ?_, hLess, hProcs, hBags, hDirs, hFiles'⟩
      intro place hPlace
      rcases List.mem_cons.mp hPlace with rfl | hPlace
      · simpa using hFile
      · exact hRest place hPlace

theorem can_program {rendered : List Char} (h : Going call False w) (hWet : call.opts.dryRun = false)
    (hRender : Template.render parses call.overrides Template.launchText = .ok rendered) :
    Can (alone parses ρ) () call.program (Returns fun result w' => result.success = true ∧ w'.scored = some none) w := by
  have hMkdir : Can (alone parses ρ) () (ask (.mkdir call.dir)) (Returns fun _ => Going call False) w := by
    have hEffect : effect parses (.worker 0) (.mkdir call.dir) obliging w = some (.ok (), w.makeDir call.dir) := by
      simp [effect, obliging, h.clear]
    exact can_ask obliging h.running hEffect h.makeDir
  apply hMkdir.bind_returns
  intro _ w₁ h₁
  have hRendered : Can (alone parses ρ) () (ask (.render call.overrides call.dir)) (Returns fun _ => Going call False) w₁ := by
    have hFree : "trial.launch.py" :: call.dir.place ∉ (w₁.makeDir call.dir).dirs := h₁.free _ (by decide)
    have hEffect : effect parses (.worker 0) (.render call.overrides call.dir) obliging w₁ =
        some (.ok (), (w₁.makeDir call.dir).put call.dir.place "trial.launch.py" (.launch rendered)) := by
      simp only [effect, hRender, obliging, h₁.clear, if_neg hFree]
      rfl
    exact can_ask obliging h₁.running hEffect (h₁.makeDir.put (by decide) _)
  apply hRendered.bind_returns
  intro _ w₂ h₂
  apply (can_write h₂ (by decide) _).bind_returns
  intro _ w₃ h₃
  apply (can_write h₃ (by decide) _).bind_returns
  intro _ w₄ h₄
  rw [hWet, if_neg (by decide)]
  have hBag : Can (alone parses ρ) () (ask (.bagExists call.bagPath)) (Returns fun found w' => found = true ∧ w' = w₄) w₄ :=
    can_ask obliging h₄.running rfl ⟨h₄.bag, rfl⟩
  apply hBag.bind_returns
  rintro found _ ⟨rfl, rfl⟩
  apply (can_time h₄).bind_returns
  rintro start _ rfl
  apply (can_launchAndPlay h₄ _ _ start).bind_returns
  rintro r w₅ ⟨rfl, h₅⟩
  exact can_judge h₅ start

/-- The earlier output is in the way, and nothing else is. -/
theorem drifts_going {M : Machine runner Unit World Env Empty Event ρ} (hEnv : M.env = onEvent) (hBefore : Before w)
    (hBag : w.bags call.bagPath = true) (hStale : Stale call.dir w) (hClear : ¬Blocked call.dir w) :
    ∃ w', Drifts M w w' ∧ Going call False w' := by
  simp only [Blocked, not_or, not_exists, not_and, not_not] at hClear
  obtain ⟨hTrail, hFree⟩ := hClear
  obtain ⟨w', hDrifts, hFiles, _, hProcs, hBags, hDirs, hKept⟩ := drifts_clear M hEnv call.dir.trail hTrail
  have hMade : (w'.makeDir call.dir).dirs = (w.makeDir call.dir).dirs := by
    rw [World.makeDir_dirs, World.makeDir_dirs, hDirs]
  refine ⟨w', hDrifts, ?_, hBags ▸ hBag, ?_, ?_, ?_, fun h => h.elim⟩
  · rw [hProcs]
    exact hBefore.running
  · rw [World.obstructed, List.any_eq_false]
    intro place hPlace
    rw [hFiles place hPlace]
    decide
  · intro name hName
    rw [Free, hMade]
    exact hFree name hName
  rcases hStale with ⟨⟨writer, hDatabase⟩, hPoses⟩ | ⟨name, hFound, hFile⟩
  · left
    obtain rfl : writer = none := hBefore.earlier _ _ _ hDatabase
    have hOff : "rtabmap.db" :: call.dir.place ∉ call.dir.trail := fun hMem =>
      hFree _ List.mem_cons_self (List.mem_append_left _ hMem)
    refine ⟨(hKept _ _ (.inr hOff)).trans hDatabase, ?_⟩
    rw [Free, hMade]
    exact hPoses
  · right
    have hExport (other : String) (hOther : exportName other = true) :
        w'.files call.dir.place other = w.files call.dir.place other := by
      apply hKept _ _ (.inl _)
      rintro rfl
      exact absurd hOther (by decide +kernel)
    obtain ⟨content, hContent⟩ := Option.isSome_iff_exists.mp hFile
    have hName := (World.exists_of_found hFound).1
    refine ⟨name, content, World.found_congr (fun other hOther => ?_) hFound, (hExport name hName).trans hContent,
      hBefore.earlier _ _ _ hContent⟩
    simp only [World.exists?, World.makeDir_files, hExport other hOther, hMade]

theorem not_own_output {rendered : List Char} (hBefore : Before w) (hBag : w.bags call.bagPath = true)
    (hStale : Stale call.dir w) (hClear : ¬Blocked call.dir w) (hWet : call.opts.dryRun = false)
    (hRender : Template.render parses call.overrides Template.launchText = .ok rendered) : ¬OwnOutput parses call w := by
  intro hOwn
  obtain ⟨w', hDrifts, hGoing⟩ := drifts_going (M := alone parses (BagRunResult ℚ)) rfl hBefore hBag hStale hClear
  have hStart : Reaches (alone parses (BagRunResult ℚ)).next (fun _ _ => True) _ _ := reaches_alone w call.program
  have hLater := Can.drifts (fun _ _ => trivial) hStart hDrifts
  obtain ⟨pool, r, hRun, hDone, hLast⟩ := (can_program hGoing hWet hRender).reaches hLater
  cases r with
  | ok result => exact hOwn pool result hRun hDone hLast.1 hLast.2
  | error exc => exact hLast

end Led

def hallwayRun : BagCall :=
  ⟨"hallway", [], ⟨"/", [], ["data", "trial_0", "hallway"]⟩, {}, { outputRoot := dataRoot }⟩

end RoveMapping.Tuner.TrialRunner
