import RoveMapping.MappingApi.Actions

/-! # The mapper after an export

`actionExport` pauses the mapper early and resumes it in plain code at the end. What it leaves
behind is worked out for every environment, exceptions included.
-/
namespace RoveMapping.MappingApi
open Resumption Decimal
set_option autoImplicit false

def Env.answer (env : Env) (op : api.Op) (w : World) : Except Exc (api.Ans op) × World := MappingApi.answer env w op

def Fails {α : Type} (r : Except Exc α) : Prop := ∃ exc, r = .error exc

@[simp] theorem fails_ok {α : Type} (value : α) : ¬ Fails (.ok value : Except Exc α) := by
  rintro ⟨_, h⟩
  cases h

@[simp] theorem fails_error {α : Type} (exc : Exc) : Fails (.error exc : Except Exc α) := ⟨exc, rfl⟩

section Probe

variable (env : Env) (w : World)

def dated (paths : List String) : List (String × Nat) :=
  paths.map fun path => (path, (w.file? path).elim 0 File.mtime)

def foundPly (filename : String) : Option String :=
  match (candidates filename).find? fun path => (w.file? path).isSome with
  | some path => some path
  | none => newest (dated w (plysOf (w.listdir exportDir)))

/-- One of `os.listdir`, `os.path.getmtime` and `os.path.getsize` raises while the exported
file is looked for. -/
def ProbeRaises (filename : String) : Prop :=
  ((∀ path ∈ candidates filename, w.file? path = none) ∧
    (env.listdir.isSome ∨ ∃ path ∈ plysOf (w.listdir exportDir), Fails (w.stat (env.getmtime path) path File.mtime))) ∨
  ∃ path, foundPly w filename = some path ∧ Fails (w.stat (env.getsize path) path File.size)

/-- The export step raises something that its `try` does not name. -/
def ExportRaises (filename : String) : Prop :=
  match env.run with
  | .error (.fileNotFoundError _) | .error (.timeoutExpired _) => False
  | .error _ => True
  | .ok proc => proc.returncode = 0 ∧ ProbeRaises env (w.write env.exported) filename

theorem ask_runs (op : Op) : (ask op).Runs env.answer w (answer env w op).1 (answer env w op).2 [op] :=
  Program.Runs.perform rfl

/-- The program leaves the state as it is, and raises exactly when `raises` holds. -/
def Probes {α : Type} (p : Program api α) (raises : Prop) (value : α) : Prop :=
  ∃ r ops, p.Runs env.answer w r w ops ∧ (raises ∧ Fails r ∨ ¬ raises ∧ r = .ok value)

variable {env w}

theorem Probes.pure {α : Type} (value : α) : Probes env w (.pure value) False value :=
  ⟨_, _, .pure value w, .inr ⟨not_false, rfl⟩⟩

theorem Probes.bind {α β : Type} {p : Program api α} {f : α → Program api β} {raises raises' : Prop} {value : α}
    {value' : β} (hp : Probes env w p raises value) (hf : ¬ raises → Probes env w (f value) raises' value') :
    Probes env w (p >>= f) (raises ∨ raises') value' := by
  obtain ⟨r, ops, hRuns, ⟨hRaises, exc, rfl⟩ | ⟨hQuiet, rfl⟩⟩ := hp
  · exact ⟨_, _, hRuns.bind_error, .inl ⟨.inl hRaises, fails_error exc⟩⟩
  · obtain ⟨r', ops', hRuns', hEnd⟩ := hf hQuiet
    refine ⟨r', _, hRuns.bind hRuns', ?_⟩
    rcases hEnd with ⟨hRaises', hFails⟩ | ⟨hQuiet', hValue⟩
    · exact .inl ⟨.inr hRaises', hFails⟩
    · exact .inr ⟨not_or.mpr ⟨hQuiet, hQuiet'⟩, hValue⟩

theorem Probes.congr {α : Type} {p : Program api α} {raises raises' : Prop} {value : α} (h : raises ↔ raises')
    (hp : Probes env w p raises value) : Probes env w p raises' value := by
  rwa [← propext h]

theorem isFile_probes (path : String) : Probes env w (ask (.isFile path)) False (w.file? path).isSome :=
  ⟨_, _, ask_runs env w _, .inr ⟨not_false, rfl⟩⟩

theorem listdir_probes : Probes env w (ask (.listdir exportDir)) env.listdir.isSome (w.listdir exportDir) := by
  refine ⟨_, _, ask_runs env w _, ?_⟩
  cases h : env.listdir with
  | none => exact .inr ⟨Bool.false_ne_true, by simp [MappingApi.answer, h]⟩
  | some exc => exact .inl ⟨rfl, exc, by simp [MappingApi.answer, h]⟩

theorem stat_cases (failure : Option Exc) (path : String) (field : File → Nat) :
    Fails (w.stat failure path field) ∨ w.stat failure path field = .ok ((w.file? path).elim 0 field) := by
  unfold World.stat
  split
  · exact .inl (fails_error _)
  · rename_i hFile
    exact .inr (by rw [hFile]; rfl)
  · exact .inl (fails_error _)

theorem stat_probes {op : Op} {path : String} {failure : Option Exc} {field : File → Nat} {value : Except Exc op.Ans}
    {size : op.Ans} (h : MappingApi.answer env w op = (value, w))
    (hStat : Fails value ↔ Fails (w.stat failure path field)) (hSize : ¬ Fails value → value = .ok size) :
    Probes env w (ask op) (Fails (w.stat failure path field)) size := by
  refine ⟨value, [op], .perform h, ?_⟩
  rw [← hStat]
  by_cases hFails : Fails value
  · exact .inl ⟨hFails, hFails⟩
  · exact .inr ⟨hFails, hSize hFails⟩

theorem getmtime_probes (path : String) : Probes env w (ask (.getmtime path))
    (Fails (w.stat (env.getmtime path) path File.mtime)) ((w.file? path).elim 0 File.mtime) :=
  stat_probes rfl .rfl (stat_cases _ path _).resolve_left

theorem getsize_probes (path : String) : Probes env w (ask (.getsize path))
    (Fails (w.stat (env.getsize path) path File.size)) ((w.file? path).elim 0 File.size) :=
  stat_probes rfl .rfl (stat_cases _ path _).resolve_left

theorem firstFile_probes (paths : List String) :
    Probes env w (firstFile paths) False (paths.find? fun path => (w.file? path).isSome) := by
  induction paths with
  | nil => exact .pure _
  | cons path rest ih =>
    apply Probes.congr (or_self_iff)
    apply (isFile_probes path).bind
    intro _
    rw [List.find?_cons]
    cases (w.file? path).isSome with
    | true => exact .pure _
    | false => exact ih

theorem withMtimes_probes (paths : List String) : Probes env w (withMtimes paths)
    (∃ path ∈ paths, Fails (w.stat (env.getmtime path) path File.mtime)) (dated w paths) := by
  induction paths with
  | nil => exact (Probes.pure _).congr (by simp)
  | cons path rest ih =>
    have hRest : Probes env w (withMtimes (path :: rest)) _ (dated w (path :: rest)) :=
      (getmtime_probes path).bind fun _ => ih.bind fun _ => .pure _
    exact hRest.congr (by simp)

theorem newestPly_probes : Probes env w newestPly
    (env.listdir.isSome ∨ ∃ path ∈ plysOf (w.listdir exportDir), Fails (w.stat (env.getmtime path) path File.mtime))
    (newest (dated w (plysOf (w.listdir exportDir)))) := by
  have hAll : Probes env w newestPly _ (newest (dated w (plysOf (w.listdir exportDir)))) :=
    listdir_probes.bind fun _ => (withMtimes_probes _).bind fun _ => .pure _
  exact hAll.congr (by simp)

theorem findExported_probes (filename : String) : Probes env w (findExported filename)
    ((∀ path ∈ candidates filename, w.file? path = none) ∧
      (env.listdir.isSome ∨ ∃ path ∈ plysOf (w.listdir exportDir), Fails (w.stat (env.getmtime path) path File.mtime)))
    (foundPly w filename) := by
  cases hFirst : (candidates filename).find? fun path => (w.file? path).isSome with
  | some path =>
    have hHere : Probes env w (findExported filename) _ (foundPly w filename) :=
      (firstFile_probes (candidates filename)).bind fun _ => by
        simp only [foundPly, hFirst]
        exact .pure _
    refine hHere.congr ?_
    obtain ⟨hMem, hFile⟩ : path ∈ candidates filename ∧ (w.file? path).isSome :=
      ⟨List.mem_of_find?_eq_some hFirst, by simpa using List.find?_some hFirst⟩
    simp only [or_self, false_iff, not_and]
    intro hNone
    simp [hNone path hMem] at hFile
  | none =>
    have hNewest : Probes env w (findExported filename) _ (foundPly w filename) :=
      (firstFile_probes (candidates filename)).bind fun _ => by
        simp only [foundPly, hFirst]
        exact newestPly_probes
    refine hNewest.congr ?_
    have hNone : ∀ path ∈ candidates filename, w.file? path = none := by
      simpa [List.find?_eq_none] using hFirst
    exact (iff_of_eq (false_or _)).trans (and_iff_right hNone).symm

theorem foundResult_probes (duration : ℚ) (found : Option String) : ∃ value, Probes env w (foundResult duration found)
    (∃ path, found = some path ∧ Fails (w.stat (env.getsize path) path File.size)) value := by
  cases found with
  | none => exact ⟨_, (Probes.pure _).congr (by simp)⟩
  | some path =>
    have hSize : Probes env w (foundResult duration (some path)) _ _ := (getsize_probes path).bind fun _ => .pure _
    exact ⟨_, hSize.congr (by simp)⟩

theorem exported_probes (filename : String) (duration : ℚ) (proc : CompletedProcess) : ∃ value,
    Probes env w (exported filename duration proc) (proc.returncode = 0 ∧ ProbeRaises env w filename) value := by
  unfold exported
  split
  · rename_i hCode
    exact ⟨_, (Probes.pure _).congr (by simp [hCode])⟩
  · rename_i hCode
    have hResult : ∃ value, Probes env w (foundResult duration (foundPly w filename)) _ value :=
      foundResult_probes duration _
    obtain ⟨value, hFound⟩ := hResult
    exact ⟨value, ((findExported_probes filename).bind fun _ => hFound).congr (and_iff_right (not_not.mp hCode)).symm⟩

variable (env w) in
theorem runExport_runs (filename : String) : ∃ r t ops, (runExport filename).Runs env.answer w r t ops ∧
    t.rtabmap = w.rtabmap ∧ (Fails r ↔ ExportRaises env w filename) ∧ ∀ op ∈ ops, op.Local := by
  obtain ⟨r, t, ops, hRuns⟩ : ∃ r t ops, (runExport filename).Runs env.answer w r t ops := Program.exists_runs _ w
  have hKeeps : t.rtabmap = w.rtabmap := hRuns.keeps (runExport_uses filename) fun op w h => (answer_local h env w).1
  refine ⟨r, t, ops, hRuns, hKeeps, ?_, hRuns.allowed (runExport_uses filename)⟩
  -- the run as it goes, from the clock to the look at the files
  let w₁ : World := { w with ticks := w.ticks + 1 }
  let w₂ : World := w₁.write env.exported
  let w₃ : World := { w₂ with ticks := w₂.ticks + 1 }
  have hTime : (ask .time).Runs env.answer w (.ok (env.clock w.ticks)) w₁ [.time] := ask_runs env w .time
  have hRun : (ask (.run (exportCmd filename))).attempt.Runs env.answer w₁ (.ok env.run) w₂ [_] :=
    (ask_runs env w₁ (.run (exportCmd filename))).attempt
  have hTime' : (ask .time).Runs env.answer w₂ (.ok (env.clock w₂.ticks)) w₃ [.time] := ask_runs env w₂ .time
  have hEnds : ∀ {r' : Except Exc Result} {t' : World} {ops' : List Op},
      (runExport filename).Runs env.answer w r' t' ops' → r = r' := fun h => (hRuns.unique h).1
  unfold ExportRaises
  cases hOutcome : env.run with
  | error exc =>
    rw [hOutcome] at hRun
    cases exc with
    | fileNotFoundError text => simp [hEnds (hTime.bind (hRun.bind (hTime'.bind (.pure _ _))))]
    | timeoutExpired text => simp [hEnds (hTime.bind (hRun.bind (.pure _ _)))]
    | typeError text => simp [hEnds (hTime.bind (hRun.bind (.throw _ _)))]
    | other text => simp [hEnds (hTime.bind (hRun.bind (.throw _ _)))]
  | ok proc =>
    rw [hOutcome] at hRun
    have hProbes : ∃ value, Probes env w₃ (exported filename _ proc) _ value :=
      exported_probes filename (roundTo 1 (env.clock w₂.ticks - env.clock w.ticks)) proc
    obtain ⟨value, r', ops', hExported, hEnd⟩ := hProbes
    have hr : r = r' := hEnds (hTime.bind (hRun.bind (hTime'.bind hExported)))
    change Fails r ↔ proc.returncode = 0 ∧ ProbeRaises env w₃ filename
    rcases hEnd with ⟨hRaises, hFails⟩ | ⟨hQuiet, rfl⟩
    · simp only [hr, hFails, hRaises, and_self]
    · simp only [hr, fails_ok, hQuiet]

def Value.nameable : Value → Bool
  | .str _ => true
  | value => !value.truthy

def requested (env : Env) : Value → String
  | .str s => if s = "" then s!"scan_{env.utcnow}.ply" else s
  | _ => s!"scan_{env.utcnow}.ply"

theorem requestedName_probes (filename : Value) :
    Probes env w (requestedName filename) (filename.nameable = false) (requested env filename) := by
  have hDefault : Probes env w requestedName.defaultName False s!"scan_{env.utcnow}.ply" :=
    ⟨_, _, (ask_runs env w .utcnow).bind (.pure _ _), .inr ⟨not_false, rfl⟩⟩
  have hOther : ∀ value : Value, value.nameable = !value.truthy → requested env value = s!"scan_{env.utcnow}.ply" →
      Probes env w (if value.truthy then .throw (.typeError "expected str, bytes or os.PathLike object")
        else requestedName.defaultName) (value.nameable = false) (requested env value) := by
    intro value hNameable hName
    rw [hNameable, hName]
    split
    · rename_i hTruthy
      exact ⟨_, _, .throw _ _, .inl ⟨by simpa using hTruthy, fails_error _⟩⟩
    · rename_i hTruthy
      exact hDefault.congr (by simpa using hTruthy)
  cases filename with
  | str s =>
    simp only [requestedName, requested]
    split
    · exact hDefault.congr (by simp [Value.nameable])
    · exact (Probes.pure s).congr (by simp [Value.nameable])
  | null => exact hOther .null rfl rfl
  | bool b => exact hOther (.bool b) rfl rfl
  | int n => exact hOther (.int n) rfl rfl
  | float bits => exact hOther (.float bits) rfl rfl
  | list items => exact hOther (.list items) rfl rfl
  | dict items => exact hOther (.dict items) rfl rfl

theorem makedirs_probes : Probes env w (ask (.makedirs exportDir)) env.makedirs.isSome () := by
  refine ⟨_, _, ask_runs env w _, ?_⟩
  cases h : env.makedirs with
  | none => exact .inr ⟨Bool.false_ne_true, by simp [MappingApi.answer, h]⟩
  | some exc => exact .inl ⟨rfl, exc, by simp [MappingApi.answer, h]⟩

end Probe

def exportedName (env : Env) (filename : Value) : String := withPlyExtension (basename (requested env filename))

theorem exportName_probes (env : Env) (w : World) (filename : Value) : Probes env w (exportName filename)
    (env.makedirs.isSome ∨ filename.nameable = false) (exportedName env filename) := by
  have hName : Probes env w (exportName filename) _ (exportedName env filename) :=
    makedirs_probes.bind fun _ => (requestedName_probes filename).bind fun _ => .pure _
  exact hName.congr (by simp)

def Env.Succeeds (env : Env) (svc : Service) : Prop := env.available svc ∧ env.reply svc = .done

/-- rtabmap does what the service is for, whatever `call_empty` returns. -/
def Env.CarriesOut (env : Env) (svc : Service) : Prop := env.available svc ∧ env.effect svc

instance (env : Env) (svc : Service) : Decidable (env.CarriesOut svc) := inferInstanceAs (Decidable (_ ∧ _))

section Calls

variable (env : Env) (w : World)

theorem callResult_ok (svc : Service) (reply : Reply) : (callResult svc reply).1 = true ↔ reply = .done := by
  cases reply <;> simp [callResult]

theorem callEmpty_runs (svc : Service) : ∃ result ops, (callEmpty svc).Runs env.answer w (.ok result)
    (if env.CarriesOut svc then w.call svc else w) ops ∧ (result.1 = true ↔ env.Succeeds svc) ∧
      .waitForService svc ∈ ops := by
  have hWait := ask_runs env w (.waitForService svc)
  have hCall := ask_runs env w (.callAsync svc)
  cases hAvailable : env.available svc with
  | false =>
    simp only [MappingApi.answer, hAvailable] at hWait
    have hEnd : (callEmpty svc).Runs env.answer w _ w _ := hWait.bind (.pure _ w)
    simp only [Env.CarriesOut, Env.Succeeds, hAvailable]
    exact ⟨_, _, hEnd, by simp, by simp⟩
  | true =>
    simp only [MappingApi.answer, hAvailable] at hWait
    have hEnd : (callEmpty svc).Runs env.answer w _ _ _ := hWait.bind (hCall.bind (.pure _ _))
    simp only [Env.CarriesOut, Env.Succeeds, hAvailable, true_and]
    exact ⟨_, _, hEnd, callResult_ok svc _, by simp⟩

def pausedBy : Activity := if env.CarriesOut .pause then .paused else w.rtabmap

theorem pauseForExport_runs : ∃ t ops, pauseForExport.Runs env.answer w (.ok ()) t ops ∧
    t.rtabmap = pausedBy env w ∧ t.files = w.files := by
  obtain ⟨⟨ok, msg⟩, ops, hCall, _, _⟩ := callEmpty_runs env w .pause
  have hKept : (if env.CarriesOut .pause then w.call .pause else w).rtabmap = pausedBy env w ∧
      (if env.CarriesOut .pause then w.call .pause else w).files = w.files := by
    unfold pausedBy
    split
    · exact ⟨rfl, rfl⟩
    · exact ⟨rfl, rfl⟩
  cases ok with
  | false => exact ⟨_, _, hCall.bind (.pure _ _), hKept⟩
  | true => exact ⟨_, _, hCall.bind (ask_runs env _ _), hKept⟩

def Warns (r : Except Exc Result) : Prop :=
  ∃ (result : Result) (before reason : String), r = .ok result ∧
    result.message = before ++ s!" (WARNING: resume failed: {reason})"

theorem resumeAfterExport_runs (result : Result) : ∃ r t ops,
    (resumeAfterExport result).Runs env.answer w r t ops ∧
      t.rtabmap = (if env.CarriesOut .resume then .running else w.rtabmap) ∧
      .waitForService .resume ∈ ops ∧ (env.Succeeds .resume ∨ Warns r) := by
  obtain ⟨⟨ok, msg⟩, ops, hCall, hOk, hOps⟩ := callEmpty_runs env w .resume
  have hKept : (if env.CarriesOut .resume then w.call .resume else w).rtabmap =
      if env.CarriesOut .resume then .running else w.rtabmap := by
    split <;> rfl
  cases ok with
  | false => exact ⟨_, _, _, hCall.bind (.pure _ _), hKept, by simp [hOps], .inr ⟨_, _, _, rfl, rfl⟩⟩
  | true =>
    exact ⟨_, _, _, hCall.bind ((ask_runs env _ (.writeState .running)).bind (.pure _ _)), hKept, by simp [hOps],
      .inl (hOk.mp rfl)⟩

end Calls

def Attempts (env : Env) (filename : Value) (w : World) : Prop :=
  (w.file? rtabmapDb).isSome ∧ ¬ (env.makedirs.isSome ∨ filename.nameable = false)

section Requests

variable {env : Env} {w t : World} {filename : Value} {r : Except Exc Result} {ops : List Op}

theorem actionExport_local (h : ¬ (Attempts env filename w ∧ w.mappingState ≠ .paused))
    (hRuns : (actionExport filename).Runs env.answer w r t ops) :
    t.rtabmap = w.rtabmap ∧ .waitForService .pause ∉ ops := by
  suffices hLocal : ∃ r t ops, (actionExport filename).Runs env.answer w r t ops ∧ t.rtabmap = w.rtabmap ∧
      ∀ op ∈ ops, op.Local ∨ op = .readState by
    obtain ⟨r', t', ops', hRuns', hKept, hOps⟩ := hLocal
    obtain ⟨-, rfl, rfl⟩ := hRuns.unique hRuns'
    refine ⟨hKept, fun hPause => ?_⟩
    rcases hOps _ hPause with hPause | hPause <;> cases hPause
  have hFile := ask_runs env w (.isFile rtabmapDb)
  cases hDb : (w.file? rtabmapDb).isSome with
  | false =>
    simp only [MappingApi.answer, hDb] at hFile
    exact ⟨_, _, _, hFile.bind (.pure _ _), rfl, by simp [Op.Local]⟩
  | true =>
    simp only [MappingApi.answer, hDb] at hFile
    obtain ⟨r', ops', hName, hEnd⟩ := exportName_probes env w filename
    have hNameOps := hName.allowed (exportName_uses filename)
    rcases hEnd with ⟨_, exc, rfl⟩ | ⟨hNamed, rfl⟩
    · refine ⟨_, _, _, hFile.bind hName.bind_error, rfl, ?_⟩
      rintro op (_ | ⟨_, hOp⟩)
      · exact .inl trivial
      · exact .inl (hNameOps op hOp)
    · have hPaused : w.mappingState = .paused := not_not.mp fun hState => h ⟨⟨hDb, hNamed⟩, hState⟩
      have hState := ask_runs env w .readState
      simp only [MappingApi.answer, hPaused] at hState
      obtain ⟨r'', t', ops'', hRun, hKept, -, hOps⟩ := runExport_runs env w (exportedName env filename)
      refine ⟨_, _, _, hFile.bind (hName.bind (hState.bind hRun)), hKept, ?_⟩
      intro op hOp
      simp only [List.mem_append, List.mem_singleton] at hOp
      rcases hOp with rfl | hOp | rfl | hOp
      · exact .inl trivial
      · exact .inl (hNameOps op hOp)
      · exact .inr rfl
      · exact .inl (hOps op hOp)

theorem exportRaises_congr (h : t.files = w.files) (filename : String) :
    ExportRaises env t filename ↔ ExportRaises env w filename := by
  simp only [ExportRaises, ProbeRaises, foundPly, dated, World.listdir, World.stat, World.file?, World.write, h]

theorem actionExport_attempts (h : Attempts env filename w) (hState : w.mappingState ≠ .paused)
    (hRuns : (actionExport filename).Runs env.answer w r t ops) :
    (ExportRaises env w (exportedName env filename) ∧ Fails r ∧ t.rtabmap = pausedBy env w) ∨
      (¬ ExportRaises env w (exportedName env filename) ∧
        t.rtabmap = (if env.CarriesOut .resume then .running else pausedBy env w) ∧
        .waitForService .resume ∈ ops ∧ (env.Succeeds .resume ∨ Warns r)) := by
  have hFile := ask_runs env w (.isFile rtabmapDb)
  simp only [MappingApi.answer, h.1] at hFile
  obtain ⟨_, opsName, hName, ⟨hRaises, _⟩ | ⟨_, rfl⟩⟩ := exportName_probes env w filename
  · exact absurd hRaises h.2
  have hRead := ask_runs env w .readState
  have hWasRunning : w.mappingState = .running ∨ w.mappingState = .unknown := by
    cases hRecorded : w.mappingState with
    | unknown => exact .inr rfl
    | running => exact .inl rfl
    | paused => exact absurd hRecorded hState
  obtain ⟨paused, opsPause, hPause, hPaused, hFiles⟩ := pauseForExport_runs env w
  obtain ⟨r', t', opsRun, hRun, hKept, hFails, _⟩ := runExport_runs env paused (exportedName env filename)
  rw [exportRaises_congr hFiles] at hFails
  rw [hPaused] at hKept
  -- the request up to the export step, with what follows it
  have hPrefix : ∀ {r'' : Except Exc Result} {t'' : World} {ops'' : List Op},
      (runExport (exportedName env filename) >>= resumeAfterExport).Runs env.answer paused r'' t'' ops'' →
        ∃ before, (actionExport filename).Runs env.answer w r'' t'' (before ++ ops'') := by
    intro r'' t'' ops'' hRest
    have hWhole : (actionExport filename).Runs env.answer w r'' t''
        ([.isFile rtabmapDb] ++ (opsName ++ ([.readState] ++ (opsPause ++ ops'')))) := by
      apply hFile.bind
      apply hName.bind
      apply hRead.bind
      dsimp only
      rw [if_pos hWasRunning]
      exact hPause.bind hRest
    exact ⟨[.isFile rtabmapDb] ++ (opsName ++ ([.readState] ++ opsPause)), by simpa only [List.append_assoc] using hWhole⟩
  cases r' with
  | error exc =>
    obtain ⟨before, hAll⟩ := hPrefix hRun.bind_error
    obtain ⟨rfl, rfl, -⟩ := hRuns.unique hAll
    exact .inl ⟨hFails.mp (fails_error exc), fails_error exc, hKept⟩
  | ok result =>
    obtain ⟨r'', t'', opsResume, hResume, hActivity, hMem, hEnd⟩ := resumeAfterExport_runs env t' result
    obtain ⟨before, hAll⟩ := hPrefix (hRun.bind hResume)
    obtain ⟨rfl, rfl, rfl⟩ := hRuns.unique hAll
    rw [hKept] at hActivity
    exact .inr ⟨fun hRaises => fails_ok result (hFails.mpr hRaises), hActivity, by simp [hMem], hEnd⟩

end Requests

/-- What a request that began in `before` owes the mapper. -/
structure Restores (env : Env) (before after : World) (r : Except Exc Result) (ops : List Op) : Prop where
  restored : after.rtabmap = before.rtabmap ∨
    (.waitForService .resume ∈ ops ∧ ¬ env.Succeeds .resume ∧ Warns r)
  resumed : before.rtabmap = .running → env.CarriesOut .pause → .waitForService .pause ∈ ops →
    .waitForService .resume ∈ ops
  untouched : before.rtabmap = .paused → after.rtabmap = .paused

/-- The inputs on which a request keeps its promise. -/
def Restorable (env : Env) (filename : Value) (w : World) : Prop :=
  Attempts env filename w → w.mappingState ≠ .paused →
    (w.rtabmap = .running → env.CarriesOut .pause → ¬ ExportRaises env w (exportedName env filename)) ∧
    (w.rtabmap = .paused → env.CarriesOut .resume → ExportRaises env w (exportedName env filename))

def ExportRestores : Prop := ∀ (env : Env) (filename : Value) (w t : World) (r : Except Exc Result) (ops : List Op),
  (env.reply .resume = .done → env.effect .resume) → (actionExport filename).Runs env.answer w r t ops →
    Restores env w t r ops

def mapped (state : MappingState) (activity : Activity) : World :=
  ⟨state, 0, 0, activity, [], [(rtabmapDb, ⟨1, 0⟩)], 0⟩

section Restores

variable {env : Env} {w t : World} {filename : Value} {r : Except Exc Result} {ops : List Op}

theorem restores_of_local (hKept : t.rtabmap = w.rtabmap) (hPause : .waitForService .pause ∉ ops) :
    Restores env w t r ops where
  restored := .inl hKept
  resumed _ _ hMem := absurd hMem hPause
  untouched hPaused := hKept.trans hPaused

theorem restores_raised (hFails : Fails r) (hActivity : t.rtabmap = pausedBy env w) :
    Restores env w t r ops ↔ (w.rtabmap = .running → ¬ env.CarriesOut .pause) := by
  obtain ⟨exc, rfl⟩ := hFails
  unfold pausedBy at hActivity
  constructor
  · intro h hRunning hPause
    rw [if_pos hPause] at hActivity
    rcases h.restored with hSame | ⟨_, _, _, _, _, hResult, _⟩
    · rw [hActivity, hRunning] at hSame
      cases hSame
    · cases hResult
  · intro h
    have hKept : t.rtabmap = w.rtabmap := by
      cases hBefore : w.rtabmap with
      | running => rw [hActivity, if_neg (h hBefore), hBefore]
      | paused => rw [hActivity, hBefore, ite_self]
    exact ⟨.inl hKept, fun hRunning hPause => absurd hPause (h hRunning), hKept.trans⟩

theorem restores_resumed (hResume : env.reply .resume = .done → env.effect .resume)
    (hActivity : t.rtabmap = if env.CarriesOut .resume then .running else pausedBy env w)
    (hMem : .waitForService .resume ∈ ops) (hEnd : env.Succeeds .resume ∨ Warns r) :
    Restores env w t r ops ↔ (w.rtabmap = .paused → ¬ env.CarriesOut .resume) := by
  have hPausedBy : w.rtabmap = .paused → pausedBy env w = .paused := by
    intro hPaused
    rw [pausedBy, hPaused, ite_self]
  constructor
  · intro h hPaused hCarries
    have hAfter := h.untouched hPaused
    rw [hActivity, if_pos hCarries] at hAfter
    cases hAfter
  · intro h
    have hUntouched : w.rtabmap = .paused → t.rtabmap = .paused := by
      intro hPaused
      rw [hActivity, if_neg (h hPaused), hPausedBy hPaused]
    refine ⟨?_, fun _ _ _ => hMem, hUntouched⟩
    cases hBefore : w.rtabmap with
    | paused => exact .inl (hUntouched hBefore)
    | running =>
      by_cases hSucceeds : env.Succeeds .resume
      · exact .inl (hActivity.trans (if_pos ⟨hSucceeds.1, hResume hSucceeds.2⟩))
      · exact .inr ⟨hMem, hSucceeds, hEnd.resolve_left hSucceeds⟩

/-- A request keeps its promise exactly on the restorable inputs. -/
theorem export_restores_iff (hResume : env.reply .resume = .done → env.effect .resume)
    (hRuns : (actionExport filename).Runs env.answer w r t ops) :
    Restores env w t r ops ↔ Restorable env filename w := by
  unfold Restorable
  by_cases hAttempts : Attempts env filename w ∧ w.mappingState ≠ .paused
  · simp only [hAttempts.1, hAttempts.2, ne_eq, not_false_eq_true, true_imp_iff]
    rcases actionExport_attempts hAttempts.1 hAttempts.2 hRuns with
      ⟨hRaises, hFails, hActivity⟩ | ⟨hQuiet, hActivity, hMem, hEnd⟩
    · rw [restores_raised hFails hActivity]
      simp [hRaises]
    · rw [restores_resumed hResume hActivity hMem hEnd]
      simp [hQuiet]
  · obtain ⟨hKept, hPause⟩ := actionExport_local hAttempts hRuns
    simp only [restores_of_local hKept hPause, true_iff]
    exact fun hTry hState => absurd ⟨hTry, hState⟩ hAttempts

theorem export_restores_iff_failed_export :
    let env := { obliging with run := .ok ⟨1, "", "no nodes"⟩ }
    ∃ r t ops, (actionExport .null).Runs env.answer (mapped .running .running) r t ops ∧
      Restores env (mapped .running .running) t r ops := by
  intro env
  have hRestorable : Restorable env .null (mapped .running .running) := by
    intro _ _
    exact ⟨fun _ _ hRaises => absurd hRaises.1 (by decide), fun h => by cases h⟩
  obtain ⟨r, t, ops, hRuns⟩ : ∃ r t ops, (actionExport .null).Runs env.answer (mapped .running .running) r t ops :=
    Program.exists_runs _ _
  exact ⟨r, t, ops, hRuns, (export_restores_iff (fun _ => rfl) hRuns).mpr hRestorable⟩

/-- `subprocess.run` raises something other than the two exceptions that are named. -/
theorem exportRestores_unnamed_exception : ¬ ExportRestores := by
  intro hClaim
  have h := hClaim { obliging with run := .error (.other "Permission denied") } .null (mapped .running .running)
    _ _ _ (fun _ => rfl) rfl
  rcases h.restored with hSame | ⟨_, _, _, _, _, hResult, _⟩
  · exact absurd hSame (by decide)
  · have hRaised : (.error (.other "Permission denied") : Except Exc Result) = .ok _ := hResult
    cases hRaised

end Restores
end RoveMapping.MappingApi
