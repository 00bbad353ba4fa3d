import RoveMapping.Tuner.FirstTrial
import RoveMapping.Tuner.TrialRecords

/-! # What the completion marker stands for

`trial.json` is written last and `cleanup_orphan_trials` trusts it. It speaks for the files beside
it as long as no later call on the same trial stops halfway: the marker is not taken away first.
-/
namespace RoveMapping.Tuner.TrialRunner
open Resumption PosixPath
set_option autoImplicit false

abbrev TrialCall : Type := Pool runner Unit World (TrialResult ℚ)

/-- A call of `run_trial` on this output root, stopped at any moment. -/
def Session (parses : List Char → Bool) (root : Path) (proper : Trial → World → TrialCall → Prop) (w w' : World) : Prop :=
  ∃ trial w₁ call, trial.opts.outputRoot = root ∧ SameDisk w w₁ ∧
    Reaches (alone parses _).next (fun _ _ => True) ⟨w₁, fun _ => runTrial trial⟩ call ∧ proper trial w₁ call ∧ w' = call.shared

def Deletes (_ : Unit) (op : runner.Op) (env : Env) (_ : World) : Prop :=
  match op with
  | .rmtree _ => env.io = none
  | _ => True

/-- Every trial directory that `cleanup_orphan_trials` has left is complete. -/
def Healed (parses : List Char → Bool) (root : Path) (w : World) : Prop :=
  ∀ w₁ pool stats, SameDisk w w₁ →
    Reaches (alone parses _).next (StepsOk Deletes) ⟨w₁, fun _ => cleanupOrphanTrials root true⟩ pool →
    (pool.thread ()).outcome? = some (.ok stats) →
      ∀ place, TrialPlace root place → place ∈ pool.shared.dirs → Complete place pool.shared

/-- After any calls on a fresh root, each stopped anywhere, the marker means a complete trial. -/
def MarkerMeansComplete : Prop := ∀ parses root start w,
  (∀ place, TrialPlace root place → start.exists? place "trial.json" = false) →
    Relation.ReflTransGen (Session parses root fun _ _ _ => True) start w → Healed parses root w

/-- A call on a trial that has a marker runs to its end, or stops before it has recorded anything; what
it makes and records stays clear of the other trials. -/
def Proper (root : Path) (trial : Trial) (w : World) (call : TrialCall) : Prop :=
  (w.files trial.dir.place "trial.json" = none ∨ SameRecords w call.shared ∨
    ∃ result, (call.thread ()).outcome? = some (.ok result)) ∧
  Tidy root trial w

/-- Every marker speaks the truth, and none is blocked. -/
def Consistent (root : Path) (w : World) : Prop := (∀ place, TrialPlace root place → Whole place w) ∧ Unblocked root w

theorem Consistent.congr {root : Path} {w w' : World} (hSame : SameDisk w w') (h : Consistent root w) : Consistent root w' :=
  ⟨fun place hPlace => (h.1 place hPlace).congr hSame.2, h.2.congr hSame⟩

theorem session_consistent {parses : List Char → Bool} {root : Path} {w w' : World} (hStart : Consistent root w)
    (h : Session parses root (Proper root) w w') : Consistent root w' := by
  obtain ⟨trial, w₁, call, _, hDisk, hRun, ⟨hStopped, hTidy⟩, rfl⟩ := h
  obtain ⟨hWhole₁, hClear₁⟩ := hStart.congr hDisk
  have hProof : (alone parses (TrialResult ℚ)).Proof (markerRules root trial w₁) (fun _ _ => True)
      fun _ => Delivers fun _ => Whole trial.dir.place :=
    { stable := by
        rintro i (exc | result) w w' _ hSame h
        · trivial
        · exact h.congr hSame.2
      allowed := fun _ _ _ _ _ _ _ => trivial
      start := fun _ _ call => call.elim
      env := fun pool event w' _ hInv hEvent =>
        have hSame := sameDisk_of_event hEvent
        ⟨inv_of_sameRecords hSame.2 (hInv.2.1.congr hSame) hInv, fun _ => hSame⟩ }
  have hInv : (markerRules root trial w₁).inv w₁ := ⟨fun place hPlace _ => ⟨hWhole₁ place hPlace, rfl⟩, hClear₁, .inl rfl⟩
  have hSafe : Pool.Safe (alone parses _) (markerRules root trial w₁) (fun _ => Delivers fun _ => Whole trial.dir.place)
      ⟨w₁, fun _ => runTrial trial⟩ := ⟨hInv, fun _ => runTrial_whole hTidy w₁ hInv rfl⟩
  have hCall := Machine.sound hProof hSafe hRun
  refine ⟨fun place hPlace => ?_, hCall.1.2.1⟩
  by_cases hOwn : place = trial.dir.place
  · subst hOwn
    rcases hStopped with hNone | hSame | ⟨result, hDone⟩
    · rcases hCall.1.2.2 with hPending | hMarked
      · intro content hContent
        rw [hPending, hNone] at hContent
        cases hContent
      · exact hMarked
    · exact (hWhole₁ _ hPlace).congr hSame
    · exact hCall.finished hDone
  · exact (hCall.1.1 place hPlace hOwn).1

/-! ## Cleaning up -/

section Cleanup

variable {parses : List Char → Bool} {root : Path}

def cleanupRules (root : Path) : Rules runner Unit World Env where
  inv := Consistent root
  rely _ := SameDisk
  demand _ _ _ := True
  allowed := Deletes
  refl _ w := sameDisk_refl w
  trans _ _ _ _ h h' := h.trans h'

def Remaining (root : Path) (names : List String) (w : World) : Prop :=
  ∀ name, isTrial name = true → name :: root.place ∈ w.dirs →
    name ∈ names ∨ (w.files (name :: root.place) "trial.json").isSome

theorem remaining_stable (names : List String) : (cleanupRules root).Stable () (Remaining root names) := by
  rintro w w' _ ⟨hDirs, hSame⟩ h name hName hDir
  rw [hDirs] at hDir
  rw [hSame _ _ (by decide)]
  exact h name hName hDir

theorem place_of_isTrial {name : String} (hName : isTrial name = true) : (root.child name).place = name :: root.place := by
  have hNot (other : String) (hOther : isTrial other = false) : name ≠ other := by
    rintro rfl
    exact absurd (hName.symm.trans hOther) (by decide)
  rw [place_child]
  apply enter_down
  · rintro (h | h)
    · exact hNot "" (by decide) h
    · exact hNot "." (by decide) h
  · exact hNot ".." (by decide)

/-- What a bag of one trial has recorded is not in the directory of another. -/
theorem suffix_of_enter {place other : Place} {name : String} (hLength : other.length = place.length)
    (h : other <:+ enter place name) : other = place := by
  unfold enter at h
  split at h
  · exact h.eq_of_length hLength
  split at h
  · exact (h.trans (List.tail_suffix place)).eq_of_length hLength
  · rcases List.suffix_cons_iff.mp h with rfl | hSuffix
    · simp at hLength
    · exact hSuffix.eq_of_length hLength

theorem whole_removeTree {w : World} {place removed : Place} (hLength : removed.length = place.length)
    (hWhole : Whole place w) : Whole place (w.removeTree removed) := by
  by_cases hRemoved : removed = place
  · subst hRemoved
    intro content hContent
    rw [World.removeTree_files, if_pos (List.suffix_refl _)] at hContent
    cases hContent
  · have hHere : ¬removed <:+ place := fun h => hRemoved (h.eq_of_length hLength)
    intro content hContent
    rw [World.removeTree_files, if_neg hHere] at hContent
    obtain ⟨result, rfl, hParams, hRuns⟩ := hWhole content hContent
    refine ⟨result, rfl, by rw [World.removeTree_files, if_neg hHere, hParams], ?_⟩
    intro entry hEntry
    obtain ⟨name, _, hName⟩ := List.mem_map.mp (List.of_mem_zip hEntry).2
    rw [World.removeTree_files, if_neg, hRuns entry hEntry]
    exact fun h => hRemoved (suffix_of_enter hLength (hName ▸ h))

theorem consistent_removeTree {w : World} {name : String} (h : Consistent root w) :
    Consistent root (w.removeTree (name :: root.place)) := by
  refine ⟨?_, fun place hPlace hDir => h.2 place hPlace (List.mem_of_mem_filter hDir)⟩
  rintro place ⟨other, hOther, rfl⟩
  exact whole_removeTree rfl (h.1 _ ⟨other, hOther, rfl⟩)

theorem remaining_kept {w : World} {name : String} {rest : List String} (h : Remaining root (name :: rest) w)
    (hName : isTrial name = true → name :: root.place ∈ w.dirs → (w.files (name :: root.place) "trial.json").isSome) :
    Remaining root rest w := by
  intro other hOther hDir
  rcases h other hOther hDir with hMem | hMarked
  · rcases List.mem_cons.mp hMem with rfl | hRest
    · exact .inr (hName hOther hDir)
    · exact .inl hRest
  · exact .inr hMarked

theorem remaining_removed {w : World} {name : String} {rest : List String} (h : Remaining root (name :: rest) w) :
    Remaining root rest (w.removeTree (name :: root.place)) := by
  intro other hOther hDir
  obtain ⟨hDir, hKept⟩ := List.mem_filter.mp hDir
  have hNotUnder : ¬name :: root.place <:+ other :: root.place := by
    simpa [← List.isSuffixOf_iff_suffix] using hKept
  have hNe : other ≠ name := by
    rintro rfl
    exact hNotUnder (List.suffix_refl _)
  rw [World.removeTree_files, if_neg hNotUnder]
  rcases h other hOther hDir with hMem | hMarked
  · exact .inl ((List.mem_cons.mp hMem).resolve_left hNe)
  · exact .inr hMarked

theorem markerExists_triple {name : String} (hName : isTrial name = true) (names : List String) :
    Triple (semAlone parses) (cleanupRules root) () (Remaining root (name :: names))
      (ask (.fileExists (root.child name) "trial.json"))
      (Returns fun marked w => Remaining root (name :: names) w ∧ (marked = true → Remaining root names w)) := by
  apply Triple.perform (remaining_stable (name :: names))
  intro w hInv hw
  refine ⟨trivial, ?_⟩
  intro env r w' _ hSem
  cases (effect_of_sem hSem).2
  refine ⟨⟨hInv, fun _ hj => absurd rfl hj⟩, hw, fun hMarked => remaining_kept hw fun _ _ => ?_⟩
  -- what is called trial.json is a file
  rw [place_of_isTrial hName, World.exists?, Bool.or_eq_true, decide_eq_true_eq] at hMarked
  exact hMarked.resolve_right (hInv.2 _ ⟨name, hName, rfl⟩)

theorem rmtree_triple {name : String} (hName : isTrial name = true) (names : List String) :
    Triple (semAlone parses) (cleanupRules root) () (Remaining root (name :: names)) (ask (.rmtree (root.child name)))
      (Returns fun _ => Remaining root names) := by
  apply Triple.perform (remaining_stable (name :: names))
  intro w hInv hw
  refine ⟨trivial, ?_⟩
  intro env r w' hDeletes hSem
  have hEffect := (effect_of_sem hSem).2
  have hIo : env.io = none := hDeletes
  simp only [effect, hIo, place_of_isTrial hName] at hEffect
  cases hEffect
  exact ⟨⟨consistent_removeTree hInv, fun _ hj => absurd rfl hj⟩, remaining_removed hw⟩

theorem cleanupTrials_triple (names : List String) (stats : CleanupStats) :
    Triple (semAlone parses) (cleanupRules root) () (Remaining root names) (cleanupTrials root true names stats)
      (Delivers fun _ => Remaining root []) := by
  induction names generalizing stats with
  | nil => exact Triple.pure fun w _ hw => hw
  | cons name rest ih =>
    unfold cleanupTrials
    split
    · rename_i hName
      apply (markerExists_triple hName rest).bind_returns
      rintro (_ | _)
      · apply ((rmtree_triple hName rest).attempt.pre fun w _ hw => hw.1).bind_returns
        rintro (exc | _)
        · exact fun w _ hw => hw.elim
        · exact ih _
      · exact (ih _).pre fun w _ hw => hw.2 rfl
    · rename_i hOther
      exact (ih stats).pre fun w _ hw => remaining_kept hw fun hName => absurd hName hOther

theorem cleanupOrphanTrials_triple :
    Triple (semAlone parses) (cleanupRules root) () (fun _ => True) (cleanupOrphanTrials root true)
      (Delivers fun _ => Remaining root []) := by
  have hList : Triple (semAlone parses) (cleanupRules root) () (fun _ => True) (ask (.iterdir root))
      (Returns (Remaining root)) := by
    apply Triple.perform fun _ _ _ _ h => h
    intro w hInv _
    refine ⟨trivial, ?_⟩
    intro env r w' _ hSem
    cases (effect_of_sem hSem).2
    exact ⟨⟨hInv, fun _ hj => absurd rfl hj⟩, fun name _ hDir => .inl (World.mem_subdirs.mpr hDir)⟩
  apply hList.bind_returns
  exact fun children => cleanupTrials_triple children ⟨0, 0, 0⟩

theorem healed_of_consistent {w : World} (hStart : Consistent root w) : Healed parses root w := by
  intro w₁ pool stats hDisk hRun hDone place hPlace hDir
  have hProof : (alone parses CleanupStats).Proof (cleanupRules root) (StepsOk Deletes)
      fun _ => Delivers fun _ => Remaining root [] :=
    { stable := by
        rintro i (exc | stats)
        · exact fun _ _ _ _ h => h
        · exact remaining_stable []
      allowed := fun _ _ _ _ _ hOk hOp => hOk.allowed hOp
      start := fun _ _ call => call.elim
      env := fun pool event w' _ hInv hEvent =>
        have hSame := sameDisk_of_event hEvent
        ⟨hInv.congr hSame, fun _ => hSame⟩ }
  have hInv : (cleanupRules root).inv w₁ := hStart.congr hDisk
  have hSafe : Pool.Safe (alone parses _) (cleanupRules root) (fun _ => Delivers fun _ => Remaining root [])
      ⟨w₁, fun _ => cleanupOrphanTrials root true⟩ := ⟨hInv, fun _ => cleanupOrphanTrials_triple w₁ hInv trivial⟩
  have hLast := Machine.sound hProof hSafe hRun
  have hRemaining : Remaining root [] pool.shared := hLast.finished hDone
  obtain ⟨name, hName, rfl⟩ := hPlace
  exact ⟨(hRemaining name hName hDir).resolve_left List.not_mem_nil, hLast.1.1 _ ⟨name, hName, rfl⟩⟩

end Cleanup

/-- When every call is proper, whatever survives the cleanup is complete. -/
theorem healed_of_proper {parses : List Char → Bool} {root : Path} {start w : World} (hStart : Consistent root start)
    (hCalls : Relation.ReflTransGen (Session parses root (Proper root)) start w) : Healed parses root w := by
  apply healed_of_consistent
  induction hCalls with
  | refl => exact hStart
  | tail _ hSession ih => exact session_consistent ih hSession

/-! ## A repeated trial -/

def dryTrial (overrides : List (String × Template.Override)) : Trial :=
  ⟨"trial_0", overrides, ["hallway"], {}, { outputRoot := dataRoot, dryRun := true }⟩

theorem dryTrial_first (overrides : List (String × Template.Override)) : (dryTrial overrides).First := ⟨rfl, rfl, rfl⟩

theorem place_dryTrial (overrides : List (String × Template.Override)) :
    (dryTrial overrides).dir.place = ["trial_0", "data"] := by
  rw [(dryTrial_first overrides).dir_eq]
  decide

theorem subdirs_of_calm {w : World} (h : Calm w) (hTrial : ["trial_0", "data"] ∈ w.dirs) : w.subdirs dataRoot.place = ["trial_0"] := by
  have hNodup : (w.subdirs dataRoot.place).Nodup := (List.perm_insertionSort _ _).nodup_iff.mpr (List.nodup_dedup _)
  apply List.perm_singleton.mp
  rw [List.perm_ext_iff_of_nodup hNodup (List.nodup_singleton _)]
  intro name
  rw [World.mem_subdirs, List.mem_singleton]
  constructor
  · intro hDir
    have hPlace := h.dirs _ hDir
    simpa [places, dataRoot, Path.place, enter] using hPlace
  · rintro rfl
    exact hTrial

theorem first_call : ∃ call result,
    Reaches (alone (fun _ => true) (TrialResult ℚ)).next (fun _ _ => True) ⟨World.blank, fun _ => runTrial (dryTrial [])⟩
      call ∧ (call.thread ()).outcome? = some (.ok result) ∧
    Template.effectiveParams [] Template.launchText = .ok result.params ∧
    call.shared.files (dryTrial []).dir.place "trial.json" = some (.trial result) ∧
    ["trial_0", "data"] ∈ call.shared.dirs ∧ Calm call.shared := by
  obtain ⟨params, rendered, hParams, hRender⟩ := Template.render_of_known fun _ h => (List.not_mem_nil h).elim
  have hEffective : effectiveParams (dryTrial []).overrides = pure params := by
    rw [effectiveParams, show (dryTrial []).overrides = [] from rfl, hParams]
  have hRender : Template.render (fun _ => true) (dryTrial []).overrides Template.launchText = .ok rendered := hRender
  have hFirst := dryTrial_first []
  have hName (name : String) (h : name ≠ "hallway") := hFirst.not_place h
  have h₀ : Reaches (alone (fun _ => true) (TrialResult ℚ)).next (fun _ _ => True) _ _ :=
    reaches_alone World.blank (runTrial (dryTrial []))
  have w₁ := calm_blank.makeDir hFirst.trail
  have h₁ := h₀.step obliging trivial (sem_mkdir (fun _ => true) (.worker 0) calm_blank hFirst.trail)
  rw [hEffective] at h₁
  have w₂ := w₁.put (hName "params.json" (by decide)) (.params params)
  have h₂ := h₁.step obliging trivial (sem_write (fun _ => true) (.worker 0) w₁ (hName "params.json" (by decide)))
  have w₃ := w₂.put (hName "env.json" (by decide)) (.env (dryTrial []).env)
  have h₃ := h₂.step obliging trivial (sem_write (fun _ => true) (.worker 0) w₂ (hName "env.json" (by decide)))
  have w₄ := w₃.makeDir hFirst.child_trail
  have h₄ := h₃.step obliging trivial (sem_mkdir (fun _ => true) (.worker 0) w₃ hFirst.child_trail)
  have w₅ := (w₄.makeDir hFirst.child_trail).put (hFirst.not_place_child "trial.launch.py") (.launch rendered)
  have h₅ := h₄.step obliging trivial (sem_render (fun _ => true) (.worker 0) w₄ hFirst.child_trail (hFirst.not_place_child _) hRender)
  have w₆ := w₅.put (hFirst.not_place_child "launch.cmd")
  have h₆ := h₅.step obliging trivial (sem_write (fun _ => true) (.worker 0) w₅ (hFirst.not_place_child _))
  have w₇ := fun content => (w₆ content).put (hFirst.not_place_child "bag.cmd")
  have h₇ := h₆.step obliging trivial (sem_write (fun _ => true) (.worker 0) (w₆ _) (hFirst.not_place_child _))
  have w₈ := fun content content' => (w₇ content content').put (hFirst.not_place_child "result.json")
  have h₈ := h₇.step obliging trivial (sem_write (fun _ => true) (.worker 0) (w₇ _ _) (hFirst.not_place_child _))
  have w₉ := fun content content' content'' => (w₈ content content' content'').put (hName "trial.json" (by decide))
  have h₉ := h₈.step obliging trivial (sem_write (fun _ => true) (.worker 0) (w₈ _ _ _) (hName "trial.json" (by decide)))
  refine ⟨_, _, h₉, rfl, hParams, ?_, ?_, w₉ _ _ _ _⟩
  · simp [World.put_files]
  · simp only [World.put_dirs, World.makeDir_dirs, hFirst.dir_eq]
    decide

theorem cleanup_keeps {parses : List Char → Bool} {w : World} {content : Content} (hCalm : Calm w)
    (hDir : ["trial_0", "data"] ∈ w.dirs) (hMarker : w.files ["trial_0", "data"] "trial.json" = some content) :
    ∃ pool stats, Reaches (alone parses CleanupStats).next (StepsOk Deletes) ⟨w, fun _ => cleanupOrphanTrials dataRoot true⟩
      pool ∧ (pool.thread ()).outcome? = some (.ok stats) ∧ pool.shared = w := by
  have hList : (alone parses CleanupStats).sem () (.iterdir dataRoot) obliging w = some (.ok ["trial_0"], w) := by
    simp [alone, semAlone, sem, effect, hCalm.running, subdirs_of_calm hCalm hDir]
  have hExists : (alone parses CleanupStats).sem () (.fileExists (dataRoot.child "trial_0") "trial.json") obliging w =
      some (.ok true, w) := by
    have hPlace : (dataRoot.child "trial_0").place = ["trial_0", "data"] := by decide
    simp [alone, semAlone, sem, effect, hCalm.running, hPlace, World.exists?, hMarker]
  have h₀ : Reaches (alone parses CleanupStats).next (StepsOk Deletes) _ _ :=
    reaches_alone w (cleanupOrphanTrials dataRoot true)
  have h₁ := h₀.stepOk obliging trivial hList
  have h₂ : Reaches (alone parses CleanupStats).next (StepsOk Deletes) ⟨w, fun _ => cleanupOrphanTrials dataRoot true⟩
      ⟨w, Function.update (fun _ => cleanupOrphanTrials dataRoot true) ()
        (cleanupTrials dataRoot true ["trial_0"] ⟨0, 0, 0⟩)⟩ := h₁
  rw [cleanupTrials, if_pos (by decide)] at h₂
  have h₃ := h₂.stepOk obliging trivial hExists
  exact ⟨_, ⟨1, 0, 1⟩, h₃, rfl, rfl⟩

theorem trialPlace_dryTrial (overrides : List (String × Template.Override)) :
    TrialPlace dataRoot (dryTrial overrides).dir.place := by
  rw [place_dryTrial]
  exact ⟨"trial_0", by decide, by decide⟩

theorem tidy_blank : Tidy dataRoot (dryTrial []) World.blank where
  nodup := by
    rw [place_dryTrial]
    decide +kernel
  apart other _ _ result hMarker := by cases hMarker
  clear dir hDir place hPlace := by
    have hTrail : dir.trail ⊆ places := by
      rcases List.mem_cons.mp hDir with rfl | hBag
      · exact (dryTrial_first []).trail
      · have hNames : (dryTrial []).names = [bagName "hallway"] := rfl
        rw [hNames, List.map_singleton, List.mem_singleton] at hBag
        rw [hBag]
        exact (dryTrial_first []).child_trail
    intro hMem
    have hPlaces := hTrail hMem
    simp [places] at hPlaces

theorem consistent_blank (root : Path) : Consistent root World.blank := by
  constructor
  · intro _ _ content hContent
    cases hContent
  · intro place _ hDir
    simp [World.blank] at hDir

theorem healed_of_proper_first_call : ∃ w pool stats,
    Relation.ReflTransGen (Session (fun _ => true) dataRoot (Proper dataRoot)) World.blank w ∧
    Reaches (alone (fun _ => true) _).next (StepsOk Deletes) ⟨w, fun _ => cleanupOrphanTrials dataRoot true⟩ pool ∧
    (pool.thread ()).outcome? = some (.ok stats) ∧ (dryTrial []).dir.place ∈ pool.shared.dirs ∧
    Complete (dryTrial []).dir.place pool.shared := by
  obtain ⟨call, result, hCall, hDone, _, hMarker, hDir, hCalm⟩ := first_call
  have hProper : Proper dataRoot (dryTrial []) World.blank call := ⟨.inl rfl, tidy_blank⟩
  have hSession : Session (fun _ => true) dataRoot (Proper dataRoot) World.blank call.shared :=
    ⟨dryTrial [], World.blank, call, rfl, sameDisk_refl _, hCall, hProper, rfl⟩
  obtain ⟨pool, stats, hRun, hStats, hSame⟩ := cleanup_keeps hCalm hDir (place_dryTrial [] ▸ hMarker)
  have hDir' : (dryTrial []).dir.place ∈ pool.shared.dirs := by rwa [hSame, place_dryTrial]
  have hHealed := healed_of_proper (consistent_blank _) (.single hSession)
  exact ⟨_, pool, stats, .single hSession, hRun, hStats, hDir',
    hHealed _ pool stats (sameDisk_refl _) hRun hStats _ (trialPlace_dryTrial []) hDir'⟩

def otherStrategy : List (String × Template.Override) := [("icp_strategy", .other "0")]

theorem otherStrategy_differs {params params' : List (String × String)}
    (h : Template.effectiveParams [] Template.launchText = .ok params)
    (h' : Template.effectiveParams otherStrategy Template.launchText = .ok params') : params ≠ params' := by
  have hKey : "icp_strategy" ∈ Template.placeholders Template.launchText := by
    rw [Template.placeholders_launchText]
    decide
  obtain ⟨value, hValue, hLookup⟩ := (Template.effectiveParams_ok h).2 _ hKey
  obtain ⟨value', hValue', hLookup'⟩ := (Template.effectiveParams_ok h').2 _ hKey
  have hOne : Template.paramValue [] "icp_strategy" = .ok "1" := rfl
  have hZero : Template.paramValue otherStrategy "icp_strategy" = .ok "0" := rfl
  cases hOne.symm.trans hValue
  cases hZero.symm.trans hValue'
  rintro rfl
  exact absurd (hLookup.symm.trans hLookup') (by decide)

theorem stopped_call {w : World} (hCalm : Calm w) : ∃ params call,
    Template.effectiveParams otherStrategy Template.launchText = .ok params ∧
    Reaches (alone (fun _ => true) (TrialResult ℚ)).next (fun _ _ => True) ⟨w, fun _ => runTrial (dryTrial otherStrategy)⟩
      call ∧
    call.shared = (w.makeDir (dryTrial []).dir).put (dryTrial []).dir.place "params.json" (.params params) ∧
    Calm call.shared := by
  have hKnown : ∀ entry ∈ otherStrategy, entry.1 ∈ Template.keys Template.launchTemplate := by decide
  obtain ⟨params, _, hParams, _⟩ := Template.render_of_known hKnown
  have hEffective : effectiveParams (dryTrial otherStrategy).overrides = pure params := by
    rw [effectiveParams, show (dryTrial otherStrategy).overrides = otherStrategy from rfl, hParams]
  have hTrail := (dryTrial_first otherStrategy).trail
  have hName := (dryTrial_first otherStrategy).not_place (show "params.json" ≠ "hallway" by decide)
  have h₀ : Reaches (alone (fun _ => true) (TrialResult ℚ)).next (fun _ _ => True) _ _ :=
    reaches_alone w (runTrial (dryTrial otherStrategy))
  have h₁ := h₀.step obliging trivial (sem_mkdir (fun _ => true) (.worker 0) hCalm hTrail)
  rw [hEffective] at h₁
  have h₂ := h₁.step obliging trivial (sem_write (fun _ => true) (.worker 0) (hCalm.makeDir hTrail) hName)
  exact ⟨params, _, hParams, h₂, rfl, (hCalm.makeDir hTrail).put hName _⟩

/-- The marker of the first call survives the cleanup beside the parameters of the second. -/
theorem markerMeansComplete_killed_repeat : ¬ MarkerMeansComplete := by
  intro hClaim
  obtain ⟨call, result, hCall, _, hResult, hMarker, hDir, hCalm⟩ := first_call
  obtain ⟨params, call', hParams, hCall', hShared, hCalm'⟩ := stopped_call hCalm
  have hFirst : Session (fun _ => true) dataRoot (fun _ _ _ => True) World.blank call.shared :=
    ⟨dryTrial [], World.blank, call, rfl, sameDisk_refl _, hCall, trivial, rfl⟩
  have hSecond : Session (fun _ => true) dataRoot (fun _ _ _ => True) call.shared call'.shared :=
    ⟨dryTrial otherStrategy, call.shared, call', rfl, sameDisk_refl _, hCall', trivial, rfl⟩
  have hMarker' : call'.shared.files (dryTrial []).dir.place "trial.json" = some (.trial result) := by
    simpa [hShared, World.put_files] using hMarker
  have hDir' : ["trial_0", "data"] ∈ call'.shared.dirs := by
    rw [hShared, World.put_dirs, World.makeDir_dirs]
    exact List.mem_append_right _ hDir
  obtain ⟨pool, stats, hRun, hStats, hSame⟩ := cleanup_keeps hCalm' hDir' (place_dryTrial [] ▸ hMarker')
  have hFresh : ∀ place, TrialPlace dataRoot place → World.blank.exists? place "trial.json" = false := fun place _ => by
    simp [World.exists?, World.files, World.blank]
  have hComplete := hClaim _ dataRoot World.blank call'.shared hFresh (.tail (.single hFirst) hSecond) call'.shared pool
    stats (sameDisk_refl _) hRun hStats _ (trialPlace_dryTrial []) (by rwa [hSame, place_dryTrial])
  rw [hSame] at hComplete
  obtain ⟨result', hEq, hRecorded, _⟩ := hComplete.2 _ hMarker'
  cases hEq
  have hWritten : call'.shared.files (dryTrial []).dir.place "params.json" = some (.params params) := by
    simp [hShared, World.put_files]
  rw [hWritten] at hRecorded
  cases hRecorded
  exact otherStrategy_differs hResult hParams rfl

end RoveMapping.Tuner.TrialRunner
