import RoveMapping.Tuner.BagRun

/-! # What a trial puts on record

`run_trial` writes the parameters, the result of each bag and last the marker. One call keeps the
records of other trials, and its marker fits what it has recorded itself.
-/
namespace RoveMapping.Tuner.TrialRunner
open Resumption PosixPath
set_option autoImplicit false

def recordNames : List String := ["params.json", "result.json", "trial.json"]

def SameRecords (w w' : World) : Prop := ∀ place, ∀ name ∈ recordNames, w'.files place name = w.files place name

/-- The directories that the bags of these runs were given in one of a trial. -/
def bagPlaces (place : Place) (runs : List (BagRunResult ℚ)) : List Place :=
  (assignNames [] (runs.map (·.bagPath))).map (enter place)

/-- The marker, if there is one, agrees with the parameters and with the result of each bag. -/
def Whole (place : Place) (w : World) : Prop :=
  ∀ content, w.files place "trial.json" = some content → ∃ result : TrialResult ℚ, content = .trial result ∧
    w.files place "params.json" = some (.params result.params) ∧
    ∀ entry ∈ result.runs.zip (bagPlaces place result.runs), w.files entry.2 "result.json" = some (.result entry.1)

def Complete (place : Place) (w : World) : Prop := (w.files place "trial.json").isSome ∧ Whole place w

/-- The directories under the output root that `cleanup_orphan_trials` goes through. -/
def TrialPlace (root : Path) (place : Place) : Prop := ∃ name, isTrial name = true ∧ place = name :: root.place

theorem sameRecords_refl (w : World) : SameRecords w w := fun _ _ _ => rfl

theorem SameRecords.trans {w w' w'' : World} (h : SameRecords w w') (h' : SameRecords w' w'') : SameRecords w w'' :=
  fun place name hName => (h' place name hName).trans (h place name hName)

theorem Whole.congr {place : Place} {w w' : World} (hSame : SameRecords w w') (h : Whole place w) : Whole place w' := by
  intro content hContent
  rw [hSame _ _ (by decide)] at hContent
  obtain ⟨result, rfl, hParams, hRuns⟩ := h content hContent
  refine ⟨result, rfl, by rw [hSame _ _ (by decide), hParams], ?_⟩
  intro entry hEntry
  rw [hSame _ _ (by decide), hRuns entry hEntry]

/-- Nothing that a marker speaks of is in this directory under this name. -/
def Unmarked (w : World) (place : Place) (name : String) (other : Place) : Prop :=
  (other = place → name ≠ "trial.json" ∧ name ≠ "params.json") ∧
    ∀ result, w.files other "trial.json" = some (.trial result) → place ∈ bagPlaces other result.runs → name ≠ "result.json"

theorem Whole.put {other place : Place} {name : String} {content : Content} {w : World} (h : Whole other w)
    (hUnmarked : Unmarked w place name other) : Whole other (w.put place name content) := by
  intro marker hMarker
  have hKept {file : String} (hFile : other = place → name ≠ file) :
      (w.put place name content).files other file = w.files other file := by
    rw [World.put_files, if_neg]
    rintro ⟨hPlace, hName⟩
    exact hFile hPlace hName.symm
  rw [hKept fun hPlace => (hUnmarked.1 hPlace).1] at hMarker
  obtain ⟨result, rfl, hParams, hRuns⟩ := h marker hMarker
  refine ⟨result, rfl, (hKept fun hPlace => (hUnmarked.1 hPlace).2).trans hParams, ?_⟩
  intro entry hEntry
  rw [World.put_files, if_neg, hRuns entry hEntry]
  rintro ⟨hPlace, hName⟩
  exact hUnmarked.2 result hMarker (hPlace ▸ (List.of_mem_zip hEntry).2) hName.symm

/-- No directory stands in the place of a marker. -/
def Unblocked (root : Path) (w : World) : Prop := ∀ place, TrialPlace root place → "trial.json" :: place ∉ w.dirs

/-- Between two calls processes that were left behind go on with their databases. -/
def SameDisk (w w' : World) : Prop := w'.dirs = w.dirs ∧ SameRecords w w'

theorem Unblocked.congr {root : Path} {w w' : World} (hSame : SameDisk w w') (h : Unblocked root w) : Unblocked root w' :=
  fun place hPlace hDir => h place hPlace (hSame.1 ▸ hDir)

theorem sameDisk_refl (w : World) : SameDisk w w := ⟨rfl, sameRecords_refl w⟩

theorem SameDisk.trans {w w' w'' : World} (h : SameDisk w w') (h' : SameDisk w' w'') : SameDisk w w'' :=
  ⟨h'.1.trans h.1, h.2.trans h'.2⟩

/-! ## One call -/

/-- The bags of a call have directories of their own, none of which another trial has put its result in, and no
directory that the call makes stands in the place of a marker. -/
structure Tidy (root : Path) (trial : Trial) (start : World) : Prop where
  nodup : (trial.names.map (enter trial.dir.place)).Nodup
  apart : ∀ other, TrialPlace root other → other ≠ trial.dir.place → ∀ result,
    start.files other "trial.json" = some (.trial result) → ∀ name ∈ trial.names,
      enter trial.dir.place name ∉ bagPlaces other result.runs
  clear : ∀ dir ∈ trial.dir :: trial.names.map trial.dir.child, ∀ place, TrialPlace root place →
    "trial.json" :: place ∉ dir.trail

section Call

variable {parses : List Char → Bool} {root : Path} {trial : Trial} {start : World} {G : World → Prop}

def Pending (trial : Trial) (start w : World) : Prop :=
  w.files trial.dir.place "trial.json" = start.files trial.dir.place "trial.json"

/-- The markers of the other trials stay and speak the truth. -/
def OthersWhole (root : Path) (trial : Trial) (start w : World) : Prop :=
  ∀ other, TrialPlace root other → other ≠ trial.dir.place →
    Whole other w ∧ w.files other "trial.json" = start.files other "trial.json"

def markerRules (root : Path) (trial : Trial) (start : World) : Rules runner Unit World Env where
  inv w := OthersWhole root trial start w ∧ Unblocked root w ∧ (Pending trial start w ∨ Whole trial.dir.place w)
  rely _ := SameDisk
  demand _ _ _ := True
  allowed _ _ _ _ := True
  refl _ := sameDisk_refl
  trans _ _ _ _ h h' := h.trans h'

def Recorded (G : World → Prop) : Prop := ∀ w w', SameRecords w w' → G w → G w'

theorem recorded_pending : Recorded (Pending trial start) := fun _ _ hSame h => (hSame _ _ (by decide)).trans h

theorem Recorded.and {H : World → Prop} (hG : Recorded G) (hH : Recorded H) : Recorded fun w => G w ∧ H w :=
  fun w w' hSame h => ⟨hG w w' hSame h.1, hH w w' hSame h.2⟩

theorem Recorded.stable (hG : Recorded G) : (markerRules root trial start).Stable () G :=
  fun w w' _ hSame h => hG w w' hSame.2 h

theorem recorded_others : Recorded (OthersWhole root trial start) := fun _ _ hSame h other hOther hNe =>
  ⟨(h other hOther hNe).1.congr hSame, (hSame _ _ (by decide)).trans (h other hOther hNe).2⟩

/-- The invariant, where the records stay and no marker is blocked. -/
theorem inv_of_sameRecords {w w' : World} (hSame : SameRecords w w') (hClear : Unblocked root w')
    (h : (markerRules root trial start).inv w) : (markerRules root trial start).inv w' :=
  ⟨recorded_others w w' hSame h.1, hClear, h.2.2.imp (recorded_pending w w' hSame) (Whole.congr hSame)⟩

theorem guarantee_alone {w w' : World} (h : (markerRules root trial start).inv w') :
    (markerRules root trial start).Guarantee () w w' := ⟨h, fun _ hj => absurd rfl hj⟩

theorem sameRecords_of_bag {dir : Path} {op : Op} {env : Env} {w w' : World} {r : Except Exc op.Ans} (hOp : op.OfBag dir)
    (h : effect parses (.worker 0) op env w = some (r, w')) : SameRecords w w' := by
  intro place name hName
  have hOther : ∀ name ∈ recordNames, name ∉ ownFiles ∧ exportName name = false := by decide +kernel
  obtain ⟨hOwn, hExport⟩ := hOther name hName
  exact files_of_bag hOp h place hOwn fun hExported => absurd (hExported.symm.trans hExport) (by decide)

theorem unblocked_append {dir : Path} {w w' : World} (hDir : ∀ place, TrialPlace root place → "trial.json" :: place ∉ dir.trail)
    (hDirs : w'.dirs = w.dirs ∨ w'.dirs = dir.trail ++ w.dirs) (h : Unblocked root w) : Unblocked root w' := by
  intro place hPlace hMem
  rcases hDirs with hSame | hMade
  · exact h place hPlace (hSame ▸ hMem)
  · rw [hMade] at hMem
    exact (List.mem_append.mp hMem).elim (hDir place hPlace) (h place hPlace)

theorem keep_triple {op : Op} {dir : Path} (hDir : ∀ place, TrialPlace root place → "trial.json" :: place ∉ dir.trail)
    (hG : Recorded G) (hOp : op.OfBag dir) :
    Triple (semAlone parses) (markerRules root trial start) () G (ask op) fun _ => G := by
  apply Triple.perform hG.stable
  intro w hInv hw
  refine ⟨trivial, ?_⟩
  intro env r w' _ hSem
  have hEffect := (effect_of_sem hSem).2
  have hRecords := sameRecords_of_bag hOp hEffect
  have hClear := unblocked_append hDir (dirs_of_bag hOp hEffect) hInv.2.1
  refine ⟨guarantee_alone (inv_of_sameRecords hRecords hClear hInv), ?_⟩
  cases r with
  | ok value => exact hG w w' hRecords hw
  | error exc => exact hG w w' hRecords hw

/-- A write that no other marker speaks of; what it owes is `G'` and the marker. -/
theorem put_triple {G' : World → Prop} {dir : Path} {name : String} {content : Content} (hG : Recorded G)
    (hOther : ∀ w, OthersWhole root trial start w → ∀ other, TrialPlace root other → other ≠ trial.dir.place →
      Unmarked w dir.place name other)
    (hPut : ∀ w, G w → (Pending trial start (w.put dir.place name content) ∨
      Whole trial.dir.place (w.put dir.place name content)) ∧ G' (w.put dir.place name content)) :
    Triple (semAlone parses) (markerRules root trial start) () G (ask (.write dir name content)) (Delivers fun _ => G') := by
  apply Triple.perform hG.stable
  rintro w ⟨hOthers, hClear, hMarker⟩ hw
  refine ⟨trivial, ?_⟩
  intro env r w' _ hSem
  have hEffect := (effect_of_sem hSem).2
  simp only [effect, Option.some.injEq] at hEffect
  split at hEffect
  · cases hEffect
    exact ⟨guarantee_alone ⟨hOthers, hClear, hMarker⟩, trivial⟩
  split at hEffect <;> cases hEffect
  · exact ⟨guarantee_alone ⟨hOthers, hClear, hMarker⟩, trivial⟩
  · have hOthers' : OthersWhole root trial start (w.put dir.place name content) := by
      intro other hTrial hNe
      obtain ⟨hWhole, hSame⟩ := hOthers other hTrial hNe
      have hUnmarked := hOther w hOthers other hTrial hNe
      refine ⟨hWhole.put hUnmarked, ?_⟩
      rw [World.put_files, if_neg, hSame]
      rintro ⟨hPlace, hName⟩
      exact (hUnmarked.1 hPlace).1 hName.symm
    obtain ⟨hMarker', hw'⟩ := hPut w hw
    exact ⟨guarantee_alone ⟨hOthers', hClear, hMarker'⟩, hw'⟩

theorem write_triple {G' : World → Prop} {dir : Path} {name : String} {content : Content} (hName : name ≠ "trial.json")
    (hG : Recorded G)
    (hOther : ∀ w, OthersWhole root trial start w → ∀ other, TrialPlace root other → other ≠ trial.dir.place →
      Unmarked w dir.place name other)
    (hPut : ∀ w, G w → G' (w.put dir.place name content)) :
    Triple (semAlone parses) (markerRules root trial start) () (fun w => Pending trial start w ∧ G w)
      (ask (.write dir name content)) (Delivers fun _ w => Pending trial start w ∧ G' w) := by
  apply put_triple (recorded_pending.and hG) hOther
  rintro w ⟨hPending, hw⟩
  have hPending' : Pending trial start (w.put dir.place name content) := by
    rw [Pending, World.put_files, if_neg fun h => hName h.2.symm]
    exact hPending
  exact ⟨.inl hPending', hPending', hPut w hw⟩

theorem unmarked_here {name : String} (hName : name ≠ "result.json") (w : World) (_ : OthersWhole root trial start w)
    (other : Place) (_ : TrialPlace root other) (hNe : other ≠ trial.dir.place) : Unmarked w trial.dir.place name other :=
  ⟨fun hPlace => absurd hPlace hNe, fun _ _ _ => hName⟩

theorem unmarked_bag (hTidy : Tidy root trial start) {name : String} (hName : name ∈ trial.names) (w : World)
    (hOthers : OthersWhole root trial start w) (other : Place) (hOther : TrialPlace root other)
    (hNe : other ≠ trial.dir.place) : Unmarked w (trial.dir.child name).place "result.json" other := by
  refine ⟨fun _ => ⟨by decide, by decide⟩, fun result hMarker hPlace => ?_⟩
  rw [(hOthers other hOther hNe).2] at hMarker
  rw [place_child] at hPlace
  exact absurd hPlace (hTidy.apart other hOther hNe result hMarker name hName)

theorem bag_triple (bag : String) {dir : Path} (hDir : ∀ place, TrialPlace root place → "trial.json" :: place ∉ dir.trail)
    (hG : Recorded G) :
    Triple (semAlone parses) (markerRules root trial start) () G (runSingleBag bag trial.overrides dir trial.env trial.opts)
      (Delivers fun result w => G w ∧ result.bagPath = bag) := by
  apply Triple.yields _ ((runSingleBag_yields bag trial.overrides dir trial.env trial.opts).mono fun _ h => h.bag)
  apply Triple.of_uses (runSingleBag_uses bag trial.overrides dir trial.env trial.opts) hG.stable
  exact fun op hOp => keep_triple hDir hG hOp

def Filed (place : Place) (names : List String) (runs : List (BagRunResult ℚ)) (w : World) : Prop :=
  ∀ entry ∈ runs.zip (names.map (enter place)), w.files entry.2 "result.json" = some (.result entry.1)

theorem runBags_filed (hTidy : Tidy root trial start) (bags : List (String × String)) (hG : Recorded G)
    (hNames : ∀ entry ∈ bags, entry.2 ∈ trial.names)
    (hNodup : (bags.map fun entry => enter trial.dir.place entry.2).Nodup)
    (hPut : ∀ w content, ∀ entry ∈ bags, G w → G (w.put (enter trial.dir.place entry.2) "result.json" content)) :
    Triple (semAlone parses) (markerRules root trial start) () (fun w => Pending trial start w ∧ G w)
      (runBags trial.dir trial.overrides trial.env trial.opts bags) (Delivers fun runs w =>
        (Pending trial start w ∧ G w) ∧ runs.map (·.bagPath) = bags.map (·.1) ∧
          Filed trial.dir.place (bags.map (·.2)) runs w) := by
  induction bags generalizing G with
  | nil => exact Triple.pure fun w _ hw => ⟨hw, rfl, fun entry hEntry => (List.not_mem_nil hEntry).elim⟩
  | cons bag rest ih =>
    obtain ⟨bag, name⟩ := bag
    obtain ⟨hFresh, hRest⟩ := List.nodup_cons.mp hNodup
    have hName : name ∈ trial.names := hNames _ List.mem_cons_self
    have hClear : ∀ place, TrialPlace root place → "trial.json" :: place ∉ (trial.dir.child name).trail :=
      hTidy.clear _ (List.mem_cons_of_mem _ (List.mem_map_of_mem hName))
    apply (bag_triple bag hClear (recorded_pending.and hG)).bind_delivers
    intro result
    rintro w hInv ⟨hw, hBag⟩
    revert w
    let G' : World → Prop := fun w => G w ∧ w.files (enter trial.dir.place name) "result.json" = some (.result result)
    have hG' : Recorded G' := hG.and fun _ _ hSame h => (hSame _ _ (by decide)).trans h
    have hWrite : ∀ w, G w → G' (w.put (trial.dir.child name).place "result.json" (.result result)) := by
      intro w hw
      rw [place_child]
      exact ⟨hPut w _ _ List.mem_cons_self hw, by simp [World.put_files]⟩
    apply (write_triple (by decide) hG (unmarked_bag hTidy hName) hWrite).bind_delivers
    intro _
    have hPut' : ∀ w content, ∀ entry ∈ rest, G' w → G' (w.put (enter trial.dir.place entry.2) "result.json" content) := by
      rintro w content entry hEntry ⟨hw, hFile⟩
      refine ⟨hPut w content entry (List.mem_cons_of_mem _ hEntry) hw, ?_⟩
      -- the directories of later bags are others
      have hNe : enter trial.dir.place name ≠ enter trial.dir.place entry.2 := fun hEq =>
        hFresh (List.mem_map.mpr ⟨entry, hEntry, hEq.symm⟩)
      rwa [World.put_files, if_neg fun h => hNe h.1]
    apply (ih hG' (fun entry hEntry => hNames entry (List.mem_cons_of_mem _ hEntry)) hRest hPut').bind_delivers
    intro others
    apply Triple.pure
    rintro w _ ⟨⟨hPending, hw, hFile⟩, hPaths, hFiled⟩
    refine ⟨⟨hPending, hw⟩, by simp [hPaths, hBag], ?_⟩
    intro entry hEntry
    rcases List.mem_cons.mp hEntry with rfl | hEntry
    · exact hFile
    · exact hFiled entry hEntry

theorem length_assignNames (used : List (String × ℕ)) (bags : List String) : (assignNames used bags).length = bags.length := by
  induction bags generalizing used with
  | nil => rfl
  | cons bag rest ih =>
    rw [assignNames]
    split <;> simp [ih]

/-- The last write of a call: the marker fits what the call has recorded. -/
theorem marker_triple {result : TrialResult ℚ} (hNames : assignNames [] (result.runs.map (·.bagPath)) = trial.names) :
    Triple (semAlone parses) (markerRules root trial start) ()
      (fun w => w.files trial.dir.place "params.json" = some (.params result.params) ∧
        Filed trial.dir.place trial.names result.runs w)
      (ask (.write trial.dir "trial.json" (.trial result))) (Delivers fun _ => Whole trial.dir.place) := by
  have hRecorded : Recorded fun w => w.files trial.dir.place "params.json" = some (.params result.params) ∧
      Filed trial.dir.place trial.names result.runs w := by
    rintro w w' hSame ⟨hParams, hFiled⟩
    exact ⟨(hSame _ _ (by decide)).trans hParams, fun entry hEntry => (hSame _ _ (by decide)).trans (hFiled entry hEntry)⟩
  apply put_triple hRecorded (unmarked_here (by decide))
  rintro w ⟨hParams, hFiled⟩
  have hWhole : Whole trial.dir.place (w.put trial.dir.place "trial.json" (.trial result)) := by
    intro content hContent
    rw [World.put_files, if_pos ⟨rfl, rfl⟩] at hContent
    cases hContent
    refine ⟨result, rfl, ?_, ?_⟩
    · rw [World.put_files, if_neg fun h => absurd h.2 (by decide), hParams]
    · intro entry hEntry
      rw [bagPlaces, hNames] at hEntry
      rw [World.put_files, if_neg fun h => absurd h.2 (by decide), hFiled entry hEntry]
  exact ⟨.inr hWhole, hWhole⟩

theorem runTrial_whole (hTidy : Tidy root trial start) :
    Triple (semAlone parses) (markerRules root trial start) () (Pending trial start) (runTrial trial)
      (Delivers fun _ => Whole trial.dir.place) := by
  have hLength : trial.names.length = trial.bags.length := length_assignNames _ _
  have hPaths : (trial.bags.zip trial.names).map (·.1) = trial.bags := List.map_fst_zip hLength.ge
  have hNames : (trial.bags.zip trial.names).map (·.2) = trial.names := List.map_snd_zip hLength.le
  have hMkdir : Op.OfBag trial.dir (.mkdir trial.dir) := .inl rfl
  apply (keep_triple (hTidy.clear _ List.mem_cons_self) recorded_pending hMkdir).bind _ fun exc w _ _ => trivial
  intro _
  unfold effectiveParams
  split
  case h_2 => exact Triple.throw fun w _ _ => trivial
  rename_i params _
  let Params : World → Prop := fun w => w.files trial.dir.place "params.json" = some (.params params)
  have hParams : Recorded Params := fun _ _ hSame h => (hSame _ _ (by decide)).trans h
  have hKeep : ∀ w place name content, name ≠ "params.json" → Params w → Params (w.put place name content) :=
    fun w place name content hName h => (World.put_files ..).trans ((if_neg fun hEq => hName hEq.2.symm).trans h)
  have hTrue : Recorded fun _ => True := fun _ _ _ h => h
  have hPut : ∀ w : World, True → Params (w.put trial.dir.place "params.json" (.params params)) :=
    fun w _ => by simp [Params, World.put_files]
  apply ((write_triple (by decide) hTrue (unmarked_here (by decide)) hPut).pre fun w _ hw => ⟨hw, trivial⟩).bind_delivers
  intro _
  apply (write_triple (by decide) hParams (unmarked_here (by decide)) fun w => hKeep w _ _ _ (by decide)).bind_delivers
  intro _
  have hIn : ∀ entry ∈ trial.bags.zip trial.names, entry.2 ∈ trial.names := fun entry hEntry => (List.of_mem_zip hEntry).2
  have hNodup : ((trial.bags.zip trial.names).map fun entry => enter trial.dir.place entry.2).Nodup := by
    have hDistinct := hTidy.nodup
    rwa [← hNames, List.map_map] at hDistinct
  apply (runBags_filed hTidy _ hParams hIn hNodup fun w _ _ _ => hKeep w _ _ _ (by decide)).bind_delivers
  intro runs
  rintro w hInv ⟨⟨_, hw⟩, hRuns, hFiled⟩
  rw [hNames] at hFiled
  let result : TrialResult ℚ := ⟨trial.id, params, trial.env, runs, runs.all (·.success)⟩
  have hAssigned : assignNames [] (result.runs.map (·.bagPath)) = trial.names := by rw [hRuns, hPaths]; rfl
  refine (marker_triple hAssigned).bind_delivers (fun _ => ?_) w hInv ⟨hw, hFiled⟩
  exact Triple.pure fun w _ hw => hw

theorem sameDisk_of_event {event : Event} {w w' : World} (h : onEvent event w = some w') : SameDisk w w' := by
  have hName : ∀ name ∈ recordNames, name ≠ "rtabmap.db" := by decide
  cases event <;> simp only [onEvent] at h <;> split at h <;> cases h
  case exits.isTrue => exact ⟨rfl, fun _ _ _ => rfl⟩
  case writesDatabase.isTrue =>
    exact ⟨rfl, fun place name hMem => by rw [World.put_files, if_neg fun hEq => hName name hMem hEq.2]⟩
  case removesDatabase.isTrue =>
    exact ⟨rfl, fun place name hMem => by rw [World.removeFile_files, if_neg fun hEq => hName name hMem hEq.2]⟩

end Call

end RoveMapping.Tuner.TrialRunner
