import RoveMapping.Tuner.BagOutput

/-! # When a bag run scores its own output

Along the whole call a file is either as it was found or the work of the call. So what is scored is
the work of the call, unless the first file that the search for a trajectory finds was there before.
-/
namespace RoveMapping.Tuner.TrialRunner
open Resumption PosixPath
set_option autoImplicit false

section Own

variable {parses : List Char → Bool} {dir : Path} {start : World} {bagPath : String} {found : Bool}

def Unspoilt (bagPath : String) (found : Bool) (w : World) : Prop := w.scored ≠ some none ∧ w.bags bagPath = found

/-- The output directory has been made. -/
def Made (dir : Path) (w : World) : Prop := dir.trail ⊆ w.dirs

def Ready (dir : Path) (bagPath : String) (found : Bool) (w : World) : Prop := Unspoilt bagPath found w ∧ Made dir w

theorem unspoilt_stable : (outputRules dir start).Stable () (Unspoilt bagPath found) := by
  rintro w w' _ ⟨hScored, hBags, _⟩ ⟨hw, hFound⟩
  exact ⟨by rwa [hScored], by rwa [hBags]⟩

theorem made_stable : (outputRules dir start).Stable () (Made dir) := by
  rintro w w' _ ⟨_, _, hDirs, _⟩ hw
  rwa [Made, hDirs]

theorem ready_stable : (outputRules dir start).Stable () (Ready dir bagPath found) :=
  fun w w' hInv hRely h => ⟨unspoilt_stable w w' hInv hRely h.1, made_stable w w' hInv hRely h.2⟩

theorem output_perform {op : Op} {P : World → Prop} (hOp : op.OfBag dir) (hP : (outputRules dir start).Stable () P)
    {post : Except Exc op.Ans → World → Prop}
    (hPost : ∀ w env r w', Output dir start w → P w → effect parses (.worker 0) op env w = some (r, w') → post r w') :
    Triple (semAlone parses) (outputRules dir start) () P (ask op) post := by
  apply Triple.perform hP
  intro w hInv hw
  refine ⟨trivial, ?_⟩
  intro env r w' _ hSem
  have hEffect := (effect_of_sem hSem).2
  exact ⟨⟨output_of_bag hOp hInv hEffect, fun _ hj => absurd rfl hj⟩, hPost w env r w' hInv hw hEffect⟩

def Op.Unscored (dir : Path) (op : Op) : Prop := op.OfBag dir ∧ ∀ dir', op ≠ .computeStats dir'

theorem made_of_bag {op : Op} {env : Env} {w w' : World} {r : Except Exc op.Ans} (hOp : op.OfBag dir)
    (h : effect parses (.worker 0) op env w = some (r, w')) (hMade : Made dir w) : Made dir w' := by
  rcases dirs_of_bag hOp h with hDirs | hDirs <;> rw [Made, hDirs]
  · exact hMade
  · exact List.subset_append_of_subset_right _ hMade

theorem ready_of_unscored {op : Op} {env : Env} {w w' : World} {r : Except Exc op.Ans} (hOp : op.Unscored dir)
    (h : effect parses (.worker 0) op env w = some (r, w')) (hReady : Ready dir bagPath found w) :
    Ready dir bagPath found w' := by
  obtain ⟨⟨hScored, hFound⟩, hMade⟩ := hReady
  exact ⟨⟨by rwa [scored_of_effect hOp.2 h], by rwa [bags_of_effect h]⟩, made_of_bag hOp.1 h hMade⟩

theorem unscored_triple {op : Op} (hOp : op.Unscored dir) :
    Triple (semAlone parses) (outputRules dir start) () (Ready dir bagPath found) (ask op)
      fun _ => Ready dir bagPath found :=
  output_perform hOp.1 ready_stable fun _ _ _ _ _ hw hEffect => ready_of_unscored hOp hEffect hw

theorem made_triple {op : Op} (hOp : op.OfBag dir) :
    Triple (semAlone parses) (outputRules dir start) () (Made dir) (ask op) fun _ => Made dir :=
  output_perform hOp made_stable fun _ _ _ _ _ hw hEffect => made_of_bag hOp hEffect hw

/-- An outcome of which `φ` holds; the call may go on. -/
def Ends {α : Type} (dir : Path) (bagPath : String) (found : Bool) (φ : α → Prop) : Except Exc α → World → Prop
  | .ok value, w => φ value ∧ Ready dir bagPath found w
  | .error _, w => Ready dir bagPath found w

section Rules

variable {α β : Type} {φ : α → Prop} {ψ : β → Prop} {p : Program runner α} {f : α → Program runner β}

theorem ends_pure {value : α} (h : φ value) :
    Triple (semAlone parses) (outputRules dir start) () (Ready dir bagPath found) (pure value) (Ends dir bagPath found φ) :=
  Triple.pure fun _ _ hw => ⟨h, hw⟩

theorem ends_bind
    (hp : Triple (semAlone parses) (outputRules dir start) () (Ready dir bagPath found) p (Ends dir bagPath found φ))
    (hf : ∀ value, φ value → Triple (semAlone parses) (outputRules dir start) () (Ready dir bagPath found) (f value)
      (Ends dir bagPath found ψ)) :
    Triple (semAlone parses) (outputRules dir start) () (Ready dir bagPath found) (p >>= f) (Ends dir bagPath found ψ) :=
  hp.bind (fun value => Triple.given (hf value)) fun _ _ _ hw => hw

theorem ends_of_uses (hUses : p.Uses (Op.Unscored dir)) :
    Triple (semAlone parses) (outputRules dir start) () (Ready dir bagPath found) p (Ends dir bagPath found fun _ => True) :=
  (Triple.of_uses hUses ready_stable fun _ hOp => unscored_triple hOp).consequence (fun _ _ hw => hw) fun
    | .ok _, _, _, hw => ⟨trivial, hw⟩
    | .error _, _, _, hw => hw

theorem unscored_bind {op : Op} {rest : op.Ans → Program runner β} (hOp : op.Unscored dir)
    (hRest : ∀ answer, Triple (semAlone parses) (outputRules dir start) () (Ready dir bagPath found) (rest answer)
      (Ends dir bagPath found ψ)) :
    Triple (semAlone parses) (outputRules dir start) () (Ready dir bagPath found) (ask op >>= rest)
      (Ends dir bagPath found ψ) :=
  ends_bind (ends_of_uses (ask_uses hOp)) fun answer _ => hRest answer

end Rules

/-- Once the output directory is made, what stands in the way there does. -/
theorem mem_dirs_of_not_free {w : World} {name : String} (hInv : Output dir start w) (hMade : Made dir w)
    (hName : ¬Free dir start name) : name :: dir.place ∈ w.dirs := by
  rcases List.mem_append.mp (not_not.mp hName) with hTrail | hDir
  · exact hMade hTrail
  · exact hInv.dirs hDir

theorem free_of_write {name : String} {content : Content} {env : Env} {w w' : World} (hInv : Output dir start w)
    (hMade : Made dir w) (h : effect parses (.worker 0) (.write dir name content) env w = some (.ok (), w')) :
    Free dir start name := by
  by_contra hNot
  have hDir := mem_dirs_of_not_free hInv hMade hNot
  simp only [effect, hDir] at h
  grind

theorem ends_write {name : String} {content : Content} (hOp : Op.OfBag dir (.write dir name content)) :
    Triple (semAlone parses) (outputRules dir start) () (Ready dir bagPath found) (ask (.write dir name content))
      (Ends dir bagPath found fun _ => Free dir start name) := by
  apply output_perform hOp ready_stable
  intro w env r w' hInv hw hEffect
  have hUnscored : Op.Unscored dir (.write dir name content) := ⟨hOp, fun _ h => by cases h⟩
  have hw' := ready_of_unscored hUnscored hEffect hw
  cases r with
  | ok _ => exact ⟨free_of_write hInv hw.2 hEffect, hw'⟩
  | error exc => exact hw'

/-! ### Scoring -/

theorem own_stable {name : String} (hName : name ≠ "rtabmap.db") : (outputRules dir start).Stable () (Own dir name) := by
  rintro w w' hInv ⟨_, _, _, hFiles, _⟩ ⟨p, hOwn⟩
  exact ⟨p, (hFiles name hName).trans hOwn⟩

theorem exportTrajectory_triple :
    Triple (semAlone parses) (outputRules dir start) () (Ready dir bagPath found) (ask (.exportTrajectory dir))
      fun r w => Ready dir bagPath found w ∧ (r = .ok (.ok ()) → Free dir start "rtabmap.db") := by
  have hOp : Op.Unscored dir (.exportTrajectory dir) := ⟨.inr (.inr rfl), fun _ h => by cases h⟩
  apply output_perform hOp.1 ready_stable
  intro w env r w' hInv hw hEffect
  refine ⟨ready_of_unscored hOp hEffect hw, ?_⟩
  rintro rfl
  simp only [effect, Option.some.injEq] at hEffect
  split at hEffect
  · rename_i writer hDatabase
    by_contra hNot
    rw [hInv.apart _ _ (mem_dirs_of_not_free hInv hw.2 hNot)] at hDatabase
    cases hDatabase
  · cases hEffect

theorem absent_stable {name : String} (hName : name ≠ "rtabmap.db") :
    (outputRules dir start).Stable () fun w => w.exists? dir.place name = false := by
  rintro w w' _ ⟨_, _, hDirs, hFiles, _⟩ hw
  rwa [World.exists?, hDirs, hFiles name hName]

theorem fileExists_triple {P : World → Prop} {name : String} (hP : (outputRules dir start).Stable () P) :
    Triple (semAlone parses) (outputRules dir start) () P (ask (.fileExists dir name))
      (Returns fun answer w => P w ∧ w.exists? dir.place name = answer) := by
  apply output_perform (by exact .inr (.inr rfl)) hP
  intro w env r w' _ hw hEffect
  cases hEffect
  exact ⟨hw, rfl⟩

theorem stable_and {P Q : World → Prop} (hP : (outputRules dir start).Stable () P) (hQ : (outputRules dir start).Stable () Q) :
    (outputRules dir start).Stable () fun w => P w ∧ Q w :=
  fun w w' hInv hRely h => ⟨hP w w' hInv hRely h.1, hQ w w' hInv hRely h.2⟩

theorem globPoses_triple {P : World → Prop} (hP : (outputRules dir start).Stable () P) :
    Triple (semAlone parses) (outputRules dir start) () P (ask (.globPoses dir))
      (Returns fun candidates w => P w ∧ w.candidates dir.place = candidates) := by
  apply output_perform (by exact .inr (.inr rfl)) hP
  intro w env r w' _ hw hEffect
  cases hEffect
  exact ⟨hw, rfl⟩

theorem findExportOutput_triple :
    Triple (semAlone parses) (outputRules dir start) () (Ready dir bagPath found) (findExportOutput dir)
      (Returns fun output w => Ready dir bagPath found w ∧ w.found dir.place = output) := by
  have hNoPoses : (outputRules dir start).Stable () fun w =>
      Ready dir bagPath found w ∧ w.exists? dir.place "trajectory_poses.txt" = false :=
    stable_and ready_stable (absent_stable (by decide))
  have hNone : (outputRules dir start).Stable () fun w => (Ready dir bagPath found w ∧
      w.exists? dir.place "trajectory_poses.txt" = false) ∧ w.exists? dir.place "trajectory.txt" = false :=
    stable_and hNoPoses (absent_stable (by decide))
  apply (fileExists_triple ready_stable).bind_returns
  rintro (_ | _)
  · apply (fileExists_triple hNoPoses).bind_returns
    rintro (_ | _)
    · apply (globPoses_triple hNone).bind_returns
      rintro candidates w _ ⟨⟨⟨hw, hPoses⟩, hPlain⟩, rfl⟩
      refine ⟨hw, ?_⟩
      rw [World.found, if_neg (by simp [hPoses]), if_neg (by simp [hPlain])]
    · refine Triple.pure fun w _ hw => ⟨hw.1.1, ?_⟩
      rw [World.found, if_neg (by simp [hw.1.2]), if_pos hw.2]
  · exact Triple.pure fun w _ hw => ⟨hw.1, if_pos hw.2⟩

/-- What is found, if it is a file, comes from the call. -/
theorem own_of_found {w : World} {name : String} {content : Content} (hInv : Output dir start w) (hMade : Made dir w)
    (hStale : ¬Stale dir start) (hFound : w.found dir.place = some name) (hFile : w.files dir.place name = some content) :
    Own dir name w := by
  have hExported := (World.exists_of_found hFound).1
  by_cases hDatabase : HasDatabase dir start
  · -- then a directory has the first name that is looked for
    have hPoses : "trajectory_poses.txt" :: dir.place ∈ w.dirs :=
      mem_dirs_of_not_free hInv hMade fun hFree => hStale (.inl ⟨hDatabase, hFree⟩)
    have hFirst : w.found dir.place = some "trajectory_poses.txt" := if_pos (by simp [World.exists?, hPoses])
    cases hFound.symm.trans hFirst
    rw [hInv.apart _ _ hPoses] at hFile
    cases hFile
  have hFresh := hInv.fresh hDatabase
  refine (hFresh.exports name hExported).resolve_right fun hSame => hStale (.inr ⟨name, ?_, by rw [← hSame, hFile]; rfl⟩)
  have hMore : ∀ other, exportName other = true → (start.makeDir dir).exists? dir.place other = true →
      w.exists? dir.place other = true := by
    intro other hOther hExists
    rw [World.exists?, Bool.or_eq_true, decide_eq_true_eq] at hExists ⊢
    refine hExists.imp (fun hSome => ?_) fun hDir => mem_dirs_of_not_free hInv hMade (not_not.mpr hDir)
    rcases hFresh.exports other hOther with ⟨p, hOwn⟩ | hKept
    · rw [hOwn]
      rfl
    · rwa [hKept]
  apply World.found_mono hMore hFound
  simp [World.exists?, ← hSame, hFile]

theorem found_stable {name : String} : (outputRules dir start).Stable () fun w => w.found dir.place = some name := by
  rintro w w' _ ⟨_, _, hDirs, hFiles, _⟩ hFound
  apply World.found_congr _ hFound
  intro other hOther
  have hNe : other ≠ "rtabmap.db" := by
    rintro rfl
    exact absurd hOther (by decide +kernel)
  rw [World.exists?, World.exists?, hDirs, hFiles other hNe]

theorem copyTrajectory_triple {name : String} (h : ¬Stale dir start ∨ ¬Free dir start "trajectory.tum") :
    Triple (semAlone parses) (outputRules dir start) ()
      (fun w => Ready dir bagPath found w ∧ w.found dir.place = some name) (ask (.copyTrajectory dir name))
      fun r w => Ready dir bagPath found w ∧ (r = .ok (.ok ()) → Own dir "trajectory.tum" w) := by
  have hOp : Op.Unscored dir (.copyTrajectory dir name) := ⟨.inr (.inr rfl), fun _ h => by cases h⟩
  apply output_perform hOp.1 (stable_and ready_stable found_stable)
  rintro w env r w' hInv ⟨hw, hFound⟩ hEffect
  refine ⟨ready_of_unscored hOp hEffect hw, ?_⟩
  rintro rfl
  simp only [effect, Option.some.injEq] at hEffect
  split at hEffect
  · rename_i content hFile
    split at hEffect
    · cases hEffect
    rename_i hDir
    have hStale : ¬Stale dir start := h.resolve_right fun hNot => hDir (mem_dirs_of_not_free hInv hw.2 hNot)
    obtain ⟨p, hOwn⟩ := own_of_found hInv hw.2 hStale hFound hFile
    cases hFile.symm.trans hOwn
    cases hEffect
    exact ⟨p, by simp [World.put_files]⟩
  · cases hEffect

theorem computeStats_triple :
    Triple (semAlone parses) (outputRules dir start) () (fun w => Ready dir bagPath found w ∧ Own dir "trajectory.tum" w)
      (ask (.computeStats dir)) fun _ => Ready dir bagPath found := by
  apply output_perform (by exact .inr (.inr rfl)) (stable_and ready_stable (own_stable (by decide)))
  rintro w env r w' _ ⟨⟨⟨hw, hFound⟩, hMade⟩, p, hOwn⟩ hEffect
  simp only [effect, hOwn, Option.some.injEq] at hEffect
  split at hEffect <;> cases hEffect
  · exact ⟨⟨hw, hFound⟩, hMade⟩
  · exact ⟨⟨fun h => (by cases h), hFound⟩, hMade⟩

theorem trajectoryStats_triple
    (h : ¬Stale dir start ∨ ¬Free dir start "trajectory.tum" ∨ ¬Free dir start "rtabmap.db") :
    Triple (semAlone parses) (outputRules dir start) () (Ready dir bagPath found) (trajectoryStats dir)
      fun _ => Ready dir bagPath found := by
  apply (fileExists_triple ready_stable).bind _ fun _ _ _ hw => hw.elim
  intro exists?
  refine Triple.pre ?_ fun w _ hw => hw.1
  split
  · have hExport : Triple (semAlone parses) (outputRules dir start) () (Ready dir bagPath found) (exportTumTrajectory dir)
        fun r w => Ready dir bagPath found w ∧ (r = .ok (.ok ()) → Own dir "trajectory.tum" w) := by
      apply exportTrajectory_triple.bind _ fun exc w _ hw => ⟨hw.1, fun h => by cases h⟩
      rintro (text | _)
      · exact Triple.pure fun w _ hw => ⟨hw.1, fun h => by cases h⟩
      have hGiven (w : World) (_ : Output dir start w) (hw : Ready dir bagPath found w ∧
          ((.ok (.ok ()) : Except Exc (Except String Unit)) = .ok (.ok ()) → Free dir start "rtabmap.db")) :
          (¬Stale dir start ∨ ¬Free dir start "trajectory.tum") ∧ Ready dir bagPath found w :=
        ⟨h.imp_right fun h => h.resolve_right (not_not.mpr (hw.2 rfl)), hw.1⟩
      refine (Triple.given fun h' => ?_).pre hGiven
      apply findExportOutput_triple.bind_returns
      rintro (_ | name)
      · exact Triple.pure fun w _ hw => ⟨hw.1, fun h => by cases h⟩
      · exact copyTrajectory_triple h'
    apply hExport.bind _ fun _ _ _ hw => hw.1
    rintro (text | _)
    · exact Triple.pure fun w _ hw => hw.1
    · apply (computeStats_triple.pre fun w _ hw => ⟨hw.1, hw.2 rfl⟩).bind _ fun _ _ _ hw => hw
      exact fun stats => Triple.pure fun w _ hw => hw
  · exact Triple.pure fun w _ hw => hw

theorem scoreRun_triple (h : ¬Stale dir start ∨ ∃ name ∈ ["rtabmap.db", "trajectory.tum", "metrics.json"], ¬Free dir start name) :
    Triple (semAlone parses) (outputRules dir start) () (Ready dir bagPath found) (scoreRun dir)
      (Delivers fun _ => Unspoilt bagPath found) := by
  have hMkdir : Op.Unscored dir (.mkdir dir) := ⟨.inl rfl, fun _ h => by cases h⟩
  apply (unscored_triple hMkdir).bind _ fun _ _ _ _ => trivial
  intro _
  by_cases hMetrics : Free dir start "metrics.json"
  · have h' : ¬Stale dir start ∨ ¬Free dir start "trajectory.tum" ∨ ¬Free dir start "rtabmap.db" := by
      rcases h with hStale | ⟨name, hName, hNot⟩
      · exact .inl hStale
      · simp only [List.mem_cons, List.not_mem_nil, or_false] at hName
        rcases hName with rfl | rfl | rfl
        · exact .inr (.inr hNot)
        · exact .inr (.inl hNot)
        · exact absurd hMetrics hNot
    apply (trajectoryStats_triple h').bind _ fun _ _ _ _ => trivial
    intro outcome
    apply (ends_write (.inr (.inr ⟨rfl, rfl⟩))).bind _ fun _ _ _ _ => trivial
    exact fun _ => Triple.pure fun w _ hw => hw.2.1
  · -- whatever was scored, the result is lost
    have hStats : Triple (semAlone parses) (outputRules dir start) () (Made dir) (trajectoryStats dir) fun _ => Made dir :=
      Triple.of_uses (trajectoryStats_uses dir) made_stable fun op hOp => made_triple (.inr (.inr hOp))
    apply (hStats.pre fun w _ hw => hw.2).bind _ fun _ _ _ _ => trivial
    intro outcome
    have hWrite {content : Content} : Triple (semAlone parses) (outputRules dir start) () (Made dir)
        (ask (.write dir "metrics.json" content)) (Delivers fun _ _ => False) := by
      apply output_perform (by exact .inr (.inr ⟨rfl, rfl⟩)) made_stable
      intro w env r w' hInv hw hEffect
      cases r with
      | ok _ => exact hMetrics (free_of_write hInv hw hEffect)
      | error exc => trivial
    exact hWrite.bind_delivers fun _ _ _ hw => hw.elim

theorem judge_triple (h : ¬Stale dir start ∨ ∃ name ∈ ["rtabmap.db", "trajectory.tum", "metrics.json"], ¬Free dir start name)
    (opts : Options) (bagPath' : String) (start' : ℚ) (playback : Playback) :
    Triple (semAlone parses) (outputRules dir start) () (Ready dir bagPath found) (judge opts dir bagPath' start' playback)
      (Delivers fun _ => Unspoilt bagPath found) := by
  have hOf (op : Op) (hOp : op.Scoring dir) (hStats : ∀ dir', op ≠ .computeStats dir') : op.Unscored dir :=
    ⟨.inr (.inr hOp), hStats⟩
  have hFailed : ∀ durationS reason, Triple (semAlone parses) (outputRules dir start) () (Ready dir bagPath found)
      (failedRun dir bagPath' durationS reason) (Delivers fun _ => Unspoilt bagPath found) := fun durationS reason =>
    (unscored_triple (hOf (.fileExists dir "rtabmap.db") rfl fun _ h => by cases h)).bind
      (fun _ => Triple.pure fun w _ hw => hw.1) fun _ _ _ _ => trivial
  apply (unscored_triple (hOf .time trivial fun _ h => by cases h)).bind _ fun _ _ _ _ => trivial
  intro now
  dsimp only
  split
  · exact hFailed _ _
  split
  · exact hFailed _ _
  apply (unscored_triple (hOf (.fileExists dir "rtabmap.db") rfl fun _ h => by cases h)).bind _ fun _ _ _ _ => trivial
  intro exists?
  split
  · exact (scoreRun_triple h).bind_delivers fun score => Triple.pure fun w _ hw => hw
  · exact Triple.pure fun w _ hw => hw.1

/-! ### Playing -/

theorem unscored_of_playing (op : Op) (h : op.Playing dir) : op.Unscored dir := by
  refine ⟨.inr (.inl h), ?_⟩
  rintro dir' rfl
  rcases h with h | h | ⟨_, _, h⟩ <;> cases h

theorem ends_playBag (opts : Options) (bagCmd : List String) :
    Triple (semAlone parses) (outputRules dir start) () (Ready dir bagPath found) (playBag opts dir bagCmd)
      (Ends dir bagPath found fun _ => Free dir start "bag.log") := by
  have hLog : Op.OfBag dir (.write dir "bag.log" .log) := .inr (.inl (.inr (.inr ⟨_, by decide, rfl⟩)))
  apply ends_bind (ends_write hLog)
  intro _ hFree
  have hRest := ((playBag_uses opts dir bagCmd).2 (.ok ())).mono unscored_of_playing
  exact (ends_of_uses hRest).consequence (fun _ _ hw => hw) fun
    | .ok _, _, _, hw => ⟨hFree, hw.2⟩
    | .error _, _, _, hw => hw

theorem ends_supervise (opts : Options) (bagPath' : String) (bagCmd : List String) (start' : ℚ) (p : ProcId) :
    Triple (semAlone parses) (outputRules dir start) () (Ready dir bagPath found)
      (supervise opts dir bagPath' bagCmd start' p)
      (Ends dir bagPath found fun r => ∀ playback, r = .inr playback → Free dir start "bag.log") := by
  have hProcess (op : Op) (h : op.Processes) : op.Unscored dir := unscored_of_playing op (.inl h)
  apply unscored_bind (hProcess (.register p) trivial)
  intro _
  apply unscored_bind (hProcess (.sleep opts.warmupS) trivial)
  intro _
  apply unscored_bind (hProcess (.poll p) trivial)
  rintro (_ | code)
  · apply ends_bind (ends_playBag opts bagCmd)
    intro playback hFree
    apply unscored_bind (hProcess (.sleep opts.drainS) trivial)
    intro _
    apply ends_bind (ends_of_uses ((terminateProcessGroup_uses p _).mono hProcess))
    intro _ _
    apply unscored_bind (hProcess (.unregister p) trivial)
    exact fun _ => ends_pure fun _ _ => hFree
  · apply unscored_bind (hProcess (.unregister p) trivial)
    intro _
    apply unscored_bind (unscored_of_playing .time (.inr (.inl rfl)))
    exact fun now => ends_pure fun _ h => by cases h

theorem ends_launchAndPlay (opts : Options) (bagPath' : String) (launchCmd bagCmd : List String) (start' : ℚ) :
    Triple (semAlone parses) (outputRules dir start) () (Ready dir bagPath found)
      (launchAndPlay opts dir bagPath' launchCmd bagCmd start')
      (Ends dir bagPath found fun r => ∀ playback, r = .inr playback → Free dir start "launch.log" ∧ Free dir start "bag.log") := by
  have hProcess (op : Op) (h : op.Processes) : op.Unscored dir := unscored_of_playing op (.inl h)
  have hLog : Op.OfBag dir (.write dir "launch.log" .log) := .inr (.inl (.inr (.inr ⟨_, by decide, rfl⟩)))
  apply ends_bind (ends_write hLog)
  intro _ hFree
  apply unscored_bind (hProcess (.popen launchCmd dir) trivial)
  intro launchProc
  have hCleanUp : Triple (semAlone parses) (outputRules dir start) () (Ready dir bagPath found) (cleanUp opts launchProc)
      (Ends dir bagPath found fun _ => True) := ends_of_uses ((cleanUp_uses opts launchProc).mono hProcess)
  apply (ends_supervise opts bagPath' bagCmd start' launchProc).attempt.bind_returns
  rintro (exc | result | playback)
  · apply ends_bind hCleanUp
    exact fun _ _ => Triple.throw fun w _ hw => hw
  · refine (ends_bind hCleanUp fun _ _ => ?_).pre fun w _ hw => hw.2
    exact ends_pure fun _ h => by cases h
  · rintro w _ ⟨hBag, hw⟩
    exact ⟨fun _ _ => ⟨hFree, hBag playback rfl⟩, hw⟩

/-! ### The call -/

/-- Before the output directory is made. -/
def Starting (dir : Path) (start : World) (bagPath : String) (found : Bool) (w : World) : Prop :=
  Unspoilt bagPath found w ∧ ∀ place ∈ dir.trail, Obstructs start place → Obstructs w place

theorem mkdir_triple : Triple (semAlone parses) (outputRules dir start) () (Starting dir start bagPath found)
    (ask (.mkdir dir)) (Delivers fun _ w => (¬∃ place ∈ dir.trail, Obstructs start place) ∧ Ready dir bagPath found w) := by
  have hStable : (outputRules dir start).Stable () (Starting dir start bagPath found) := fun w w' hInv hRely h =>
    ⟨unspoilt_stable w w' hInv hRely h.1, fun place hPlace hObstructs =>
      hRely.2.2.2.2 place (h.2 place hPlace hObstructs)⟩
  apply output_perform (by exact .inl rfl) hStable
  rintro w env r w' _ ⟨hw, hObstructs⟩ hEffect
  simp only [effect, Option.some.injEq] at hEffect
  split at hEffect
  · cases hEffect
    trivial
  split at hEffect <;> cases hEffect
  · trivial
  rename_i hClear
  refine ⟨?_, hw, List.subset_append_left _ _⟩
  rintro ⟨place, hPlace, hBlocks⟩
  exact hClear (List.any_eq_true.mpr ⟨place, hPlace, (hObstructs place hPlace hBlocks).1⟩)

theorem render_triple {overrides : List (String × Template.Override)} :
    Triple (semAlone parses) (outputRules dir start) () (Ready dir bagPath found) (ask (.render overrides dir))
      (Ends dir bagPath found fun _ => Free dir start "trial.launch.py" ∧
        ∃ rendered, Template.render parses overrides Template.launchText = .ok rendered) := by
  have hOp : Op.Unscored dir (.render overrides dir) := ⟨.inl rfl, fun _ h => by cases h⟩
  apply output_perform hOp.1 ready_stable
  intro w env r w' hInv hw hEffect
  have hw' := ready_of_unscored hOp hEffect hw
  simp only [effect, Option.some.injEq] at hEffect
  split at hEffect
  · cases hEffect
    exact hw'
  · cases hEffect
    exact hw'
  rename_i rendered hRender _
  split at hEffect
  · cases hEffect
    exact hw'
  split at hEffect <;> cases hEffect
  · exact hw'
  rename_i hDir
  refine ⟨⟨?_, rendered, hRender⟩, hw'⟩
  exact not_not.mp fun hNot => hDir (List.mem_append_right _ (mem_dirs_of_not_free hInv hw.2 hNot))

theorem bagExists_triple :
    Triple (semAlone parses) (outputRules dir start) () (Ready dir bagPath found) (ask (.bagExists bagPath))
      (Ends dir bagPath found fun answer => answer = found) := by
  apply output_perform (by exact .inl trivial) ready_stable
  rintro w env r w' _ ⟨⟨hw, hFound⟩, hMade⟩ hEffect
  cases hEffect
  exact ⟨hFound, ⟨hw, hFound⟩, hMade⟩

theorem program_triple (call : BagCall) (h : ¬Stale call.dir start ∨ call.opts.dryRun = true ∨ found = false ∨
    (∀ rendered, Template.render parses call.overrides Template.launchText ≠ .ok rendered) ∨ Blocked call.dir start) :
    Triple (semAlone parses) (outputRules call.dir start) () (Starting call.dir start call.bagPath found) call.program
      (Delivers fun _ => Unspoilt call.bagPath found) := by
  apply mkdir_triple.bind_delivers
  intro _
  apply Triple.given
  intro hClear
  have hDone {α : Type} {p : Program runner α} {φ : α → Prop}
      (hp : Triple (semAlone parses) (outputRules call.dir start) () (Ready call.dir call.bagPath found) p
        (Ends call.dir call.bagPath found φ)) :
      Triple (semAlone parses) (outputRules call.dir start) () (Ready call.dir call.bagPath found) p
        (Delivers fun value w => φ value ∧ Ready call.dir call.bagPath found w) :=
    hp.consequence (fun _ _ hw => hw) fun
      | .ok _, _, _, hw => hw
      | .error _, _, _, _ => trivial
  apply (hDone render_triple).bind_delivers
  intro _
  apply Triple.given
  rintro ⟨hLaunchFile, rendered, hRender⟩
  apply (hDone (ends_write (.inl ⟨rfl, by decide⟩))).bind_delivers
  intro _
  apply Triple.given
  intro hLaunchCmd
  apply (hDone (ends_write (.inl ⟨rfl, by decide⟩))).bind_delivers
  intro _
  apply Triple.given
  intro hBagCmd
  split
  · exact Triple.pure fun w _ hw => hw.1
  rename_i hWet
  apply (hDone bagExists_triple).bind_delivers
  intro answer
  apply Triple.given
  rintro rfl
  split
  · rename_i hFound
    have hTime : Op.Unscored call.dir .time := unscored_of_playing .time (.inr (.inl rfl))
    apply (hDone (ends_of_uses (ask_uses hTime))).bind_delivers
    intro start'
    apply Triple.given
    intro _
    apply (hDone (ends_launchAndPlay call.opts call.bagPath _ _ start')).bind_delivers
    rintro (result | playback)
    · exact Triple.pure fun w _ hw => hw.2.1
    apply Triple.given
    intro hLogs
    obtain ⟨hLaunchLog, hBagLog⟩ := hLogs playback rfl
    have hLeft : ¬Stale call.dir start ∨
        ∃ name ∈ ["rtabmap.db", "trajectory.tum", "metrics.json"], ¬Free call.dir start name := by
      rcases h with hStale | hDry | hMissing | hNone | hMade | ⟨name, hName, hNot⟩
      · exact .inl hStale
      · exact absurd hDry hWet
      · exact absurd (hFound.symm.trans hMissing) (by decide)
      · exact absurd hRender (hNone rendered)
      · exact absurd hMade hClear
      · refine .inr ⟨name, ?_, hNot⟩
        simp only [ownFiles, List.mem_cons, List.not_mem_nil, or_false] at hName ⊢
        rcases hName with rfl | rfl | rfl | rfl | rfl | rfl | hName
        · exact .inl rfl
        · exact absurd hLaunchFile hNot
        · exact absurd hLaunchCmd hNot
        · exact absurd hBagCmd hNot
        · exact absurd hLaunchLog hNot
        · exact absurd hBagLog hNot
        · exact .inr hName
    exact judge_triple hLeft call.opts call.bagPath start' playback
  · exact Triple.pure fun w _ hw => hw.1

theorem obstructs_of_event {event : Event} {w w' : World} {place : Place} (h : onEvent event w = some w')
    (hObstructs : Obstructs w place) : Obstructs w' place := by
  obtain ⟨hFile, hOther⟩ := hObstructs
  cases event <;> simp only [onEvent] at h <;> split at h <;> cases h
  case exits.isTrue p code _ =>
    refine ⟨hFile, fun q hAlive => hOther q ?_⟩
    simp only [Procs.kill, Function.update_apply] at hAlive
    grind
  case writesDatabase.isTrue p _ =>
    refine ⟨?_, hOther⟩
    cases place with
    | nil => exact hFile
    | cons name rest =>
      rw [World.isFile, World.put_files]
      split
      · rfl
      · exact hFile
  case removesDatabase.isTrue p hAlive =>
    refine ⟨?_, hOther⟩
    cases place with
    | nil => exact hFile
    | cons name rest =>
      rw [World.isFile, World.removeFile_files, if_neg, ← World.isFile]
      · exact hFile
      · rintro ⟨rfl, rfl⟩
        exact hOther p hAlive rfl

theorem output_of_event {event : Event} {w w' : World} (hInv : Output dir start w) (h : onEvent event w = some w') :
    Output dir start w' := by
  cases event <;> simp only [onEvent] at h <;> split at h <;> cases h
  case exits.isTrue => exact ⟨hInv.apart, hInv.dirs, fun hNone => ⟨(hInv.fresh hNone).database, (hInv.fresh hNone).exports⟩⟩
  case writesDatabase.isTrue p hLive =>
    refine ⟨apart_put hInv.apart hLive.2, hInv.dirs, fun hNone => ⟨?_, ?_⟩⟩
    · intro writer hWriter
      rw [World.put_files] at hWriter
      split at hWriter
      · cases hWriter
        rfl
      · exact (hInv.fresh hNone).database writer hWriter
    · intro name hName
      have hNe : name ≠ "rtabmap.db" := by
        rintro rfl
        exact absurd hName (by decide +kernel)
      rw [Own, World.put_files, if_neg fun h => hNe h.2]
      exact (hInv.fresh hNone).exports name hName
  case removesDatabase.isTrue p hLive =>
    refine ⟨?_, hInv.dirs, fun hNone => ⟨?_, ?_⟩⟩
    · intro place name hDir
      rw [World.removeFile_files]
      split
      · rfl
      · exact hInv.apart place name hDir
    · intro writer hWriter
      rw [World.removeFile_files] at hWriter
      split at hWriter
      · cases hWriter
      · exact (hInv.fresh hNone).database writer hWriter
    · intro name hName
      have hNe : name ≠ "rtabmap.db" := by
        rintro rfl
        exact absurd hName (by decide +kernel)
      rw [Own, World.removeFile_files, if_neg fun h => hNe h.2]
      exact (hInv.fresh hNone).exports name hName

theorem rely_of_event {event : Event} {w w' : World} (h : onEvent event w = some w') :
    (outputRules dir start).rely () w w' := by
  have hObstructs := fun place => @obstructs_of_event _ _ _ place h
  cases event <;> simp only [onEvent] at h <;> split at h <;> cases h
  case exits.isTrue => exact ⟨rfl, rfl, rfl, fun _ _ => rfl, hObstructs⟩
  case writesDatabase.isTrue p _ =>
    exact ⟨rfl, rfl, rfl, fun name hName => by rw [World.put_files, if_neg fun h => hName h.2], hObstructs⟩
  case removesDatabase.isTrue p _ =>
    exact ⟨rfl, rfl, rfl, fun name hName => by rw [World.removeFile_files, if_neg fun h => hName h.2], hObstructs⟩

end Own

theorem own_output_of_unmistakable {parses : List Char → Bool} {call : BagCall} {w : World} (hBefore : Before w)
    (h : Unmistakable parses call w) : OwnOutput parses call w := by
  intro pool result hRun hDone _
  have hProof : (alone parses (BagRunResult ℚ)).Proof (outputRules call.dir w) (fun _ _ => True)
      fun _ => Delivers fun _ => Unspoilt call.bagPath (w.bags call.bagPath) :=
    { stable := by
        rintro i (exc | result)
        · exact fun _ _ _ _ h => h
        · exact unspoilt_stable
      allowed := fun _ _ _ _ _ _ _ => trivial
      start := fun _ _ call => call.elim
      env := fun _ _ _ _ hInv hEvent => ⟨output_of_event hInv hEvent, fun _ => rely_of_event hEvent⟩ }
  have hInv : Output call.dir w w :=
    ⟨hBefore.apart, List.Subset.refl _, fun hNone => ⟨fun writer hWriter => absurd ⟨writer, hWriter⟩ hNone, fun _ _ => .inr rfl⟩⟩
  have hSafe : Pool.Safe (alone parses _) (outputRules call.dir w)
      (fun _ => Delivers fun _ => Unspoilt call.bagPath (w.bags call.bagPath)) ⟨w, fun _ => call.program⟩ :=
    ⟨hInv, fun _ => program_triple call h w hInv ⟨⟨by simp [hBefore.unscored], rfl⟩, fun _ _ h => h⟩⟩
  have hLast : Unspoilt _ _ pool.shared := (Machine.sound hProof hSafe hRun).finished hDone
  exact hLast.1

end RoveMapping.Tuner.TrialRunner
