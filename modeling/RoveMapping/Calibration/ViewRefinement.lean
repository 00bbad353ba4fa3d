import RoveMapping.Calibration.PointLists

/-! # One list of views for the two lists of points

The program with two lists computes what the one over views does, when the calibrator answers with a pose for each
view or names one of its views.
-/
namespace RoveMapping.Calibration.PointLists
set_option autoImplicit false

section Views

variable {Pixels Nd Exc : Type} (cv : OpenCv Pixels Nd Exc) (objp : Nd)

def badInput : Failure Exc → Option ℕ
  | .raised (.cvError message) => (inputArray message).bind int
  | _ => none

def boardRows (corners : List Nd) : List Nd := corners.map fun _ => cv.reshape objp 3

def cornerRows (corners : List Nd) : List Nd := corners.map fun c => cv.reshape c 2

/-- OpenCV for a folder with `n` views of the board; a fit is marked where it is one of a fisheye camera. -/
def OpenCv.perView (n : ℕ) : Cv Pixels Nd (Bool × Solved Nd) (Except (Failure Exc) Float) (Failure Exc) where
  imread := cv.imread
  findChessboardCorners := cv.findChessboardCorners
  cornerSubPix := cv.cornerSubPix
  fisheyeCalibrate corners imageSize :=
    let reply := cv.fisheyeCalibrate (n - corners.length) (boardRows cv objp corners) (cornerRows cv corners) imageSize
    (raising reply).map (true, ·)
  calibrateCamera corners imageSize rational :=
    (raising (cv.calibrateCamera (corners.map fun _ => objp) corners imageSize rational)).map (false, ·)
  badInput := badInput
  meanError fit corners :=
    if fit.1 then meanErr cv cv.fisheyeProjectPoints 1 (boardRows cv objp corners) (cornerRows cv corners) fit.2
    else meanErr cv cv.projectPoints 0 (corners.map fun _ => objp) corners fit.2

def result : Outcome Pixels Nd (Bool × Solved Nd) (Except (Failure Exc) Float) (Failure Exc) →
    Except (Failure Exc) (Option (Result Nd))
  | .rejected => .ok none
  | .raised failure => .error failure
  | .indexError => .error .indexError
  | .saved saved =>
    saved.meanErr.map fun meanErr => some ⟨saved.fit.2.mtx, saved.fit.2.dist, meanErr, saved.imageSize, saved.model⟩

/-! ## The images -/

def lists (s : Collected Pixels Nd) : Lists Nd :=
  ⟨s.views.map fun _ => objp, s.views.map View.corners, s.imageSize, s.used, s.skipped⟩

variable {cv objp}

theorem addImage_lists (n : ℕ) (s : Collected Pixels Nd) (p : String) :
    addImage cv objp (lists objp s) p = lists objp (Calibration.addImage (cv.perView objp n) s p) := by
  unfold addImage Calibration.addImage OpenCv.perView
  dsimp only
  cases cv.imread p with
  | none => rfl
  | some gray =>
    dsimp only
    cases cv.findChessboardCorners gray with
    | none => rfl
    | some corners => simp [lists]

theorem readImages_lists (n : ℕ) (paths : List String) :
    readImages cv objp paths = lists objp (collect (cv.perView objp n) paths) := by
  have hStart : (⟨[], [], none, 0, 0⟩ : Lists Nd) = lists objp (⟨[], none, 0, 0⟩ : Collected Pixels Nd) := rfl
  rw [readImages, hStart, collect]
  exact List.foldl_hom (lists objp) (addImage_lists n)

/-! ## The retry loop -/

variable (cv objp) in
def retry (views : List (View Pixels Nd)) (excluded : List ℕ) : Retry Nd :=
  ⟨boardRows cv objp (views.map View.corners), cornerRows cv (views.map View.corners), excluded⟩

theorem retry_eraseIdx (views : List (View Pixels Nd)) (excluded : List ℕ) (bad : ℕ) :
    retry cv objp (views.eraseIdx bad) (excluded ++ [bad]) = ⟨(retry cv objp views excluded).fo.eraseIdx bad,
      (retry cv objp views excluded).fi.eraseIdx bad, (retry cv objp views excluded).excluded ++ [bad]⟩ := by
  simp only [retry, boardRows, cornerRows, List.eraseIdx_map]

variable (cv) in
/-- The calls of `run` are those of the views, and its outcome is theirs. -/
structure Refines (run : Run Nd Exc)
    (perView : Calibration.Run Pixels Nd (Bool × Solved Nd) (Except (Failure Exc) Float) (Failure Exc)) : Prop where
  calls : run.attempts.map Retry.fi = perView.calls.map fun call => cornerRows cv (call.views.map View.corners)
  outcome : run.outcome = result perView.outcome

def retryRun (cv : OpenCv Pixels Nd Exc) (imageSize : Option (ℕ × ℕ)) (s : Retry Nd) : Run Nd Exc :=
  ⟨((retryLoop cv imageSize).run s).states, ((retryLoop cv imageSize).run s).result.bind
    fun (s, solved) => finish cv cv.fisheyeProjectPoints 1 imageSize "fisheye" s.fo s.fi solved⟩

theorem retryRun_last {imageSize : Option (ℕ × ℕ)} {s : Retry Nd} {result : Except (Failure Exc) (Retry Nd × Solved Nd)}
    (h : attempt cv imageSize s = .inr result) : retryRun cv imageSize s =
      ⟨[s], result.bind fun (s, solved) => finish cv cv.fisheyeProjectPoints 1 imageSize "fisheye" s.fo s.fi solved⟩ := by
  have hRun : (retryLoop cv imageSize).run s = ⟨[s], result⟩ := WhileTrue.run_last h
  rw [retryRun, hRun]

theorem retryRun_next {imageSize : Option (ℕ × ℕ)} {s next : Retry Nd} (h : attempt cv imageSize s = .inl next) :
    retryRun cv imageSize s = ⟨s :: (retryRun cv imageSize next).attempts, (retryRun cv imageSize next).outcome⟩ := by
  have hRun : (retryLoop cv imageSize).run s = _ := WhileTrue.run_next h
  rw [retryRun, hRun]
  rfl

variable (cv objp) in
theorem perView_fisheyeCalibrate (imageSize : Option (ℕ × ℕ)) {n : ℕ} {views : List (View Pixels Nd)} {excluded : List ℕ}
    (hCount : views.length + excluded.length = n) :
    (cv.perView objp n).fisheyeCalibrate (views.map View.corners) imageSize =
      (raising (calibrate cv imageSize (retry cv objp views excluded))).map (true, ·) := by
  have hCalls : n - (views.map View.corners).length = excluded.length := by
    rw [List.length_map]
    omega
  change (raising (cv.fisheyeCalibrate (n - (views.map View.corners).length) _ _ imageSize)).map (true, ·) = _
  rw [hCalls]
  rfl

variable (cv objp) in
theorem length_fo (views : List (View Pixels Nd)) (excluded : List ℕ) :
    (retry cv objp views excluded).fo.length = views.length := by
  rw [retry, boardRows, List.length_map, List.length_map]

variable (cv objp) in
theorem length_fi (views : List (View Pixels Nd)) (excluded : List ℕ) :
    (retry cv objp views excluded).fi.length = views.length := by
  rw [retry, cornerRows, List.length_map, List.length_map]

theorem attempt_raise {imageSize : Option (ℕ × ℕ)} {s : Retry Nd} {message : String}
    (hCall : calibrate cv imageSize s = .error (.cvError message))
    (hRaise : inputArray message = none ∨ s.fo.length < 4) :
    attempt cv imageSize s = .inr (.error (.raised (.cvError message))) := by
  rw [attempt, hCall]
  dsimp only
  rw [handle_raise hRaise]

theorem Refines.exclude {imageSize : Option (ℕ × ℕ)} {n : ℕ} {views : List (View Pixels Nd)} {excluded : List ℕ}
    {message : String} {digits : List Char} {bad : ℕ} (hCount : views.length + excluded.length = n)
    (hCall : calibrate cv imageSize (retry cv objp views excluded) = .error (.cvError message))
    (hDigits : inputArray message = some digits) (hInt : int digits = some bad) (hEnough : ¬views.length < 4)
    (hBad : bad < views.length)
    (hRest : Refines cv (retryRun cv imageSize (retry cv objp (views.eraseIdx bad) (excluded ++ [bad])))
      (fisheyeLoop (cv.perView objp n) imageSize (views.eraseIdx bad))) :
    Refines cv (retryRun cv imageSize (retry cv objp views excluded)) (fisheyeLoop (cv.perView objp n) imageSize views) := by
  have hPerView := perView_fisheyeCalibrate cv objp imageSize hCount
  rw [hCall] at hPerView
  have hSome : badInput (.raised (.cvError message) : Failure Exc) = some bad := by
    rw [badInput, hDigits]
    exact hInt
  have hFo := length_fo cv objp views excluded
  have hFi := length_fi cv objp views excluded
  have hNext : attempt cv imageSize (retry cv objp views excluded) =
      .inl (retry cv objp (views.eraseIdx bad) (excluded ++ [bad])) := by
    rw [attempt, hCall]
    dsimp only
    rw [handle_exclude hDigits (hFo.symm ▸ hEnough) hInt (hFo.symm ▸ hBad) (hFi.symm ▸ hBad), retry_eraseIdx]
  rw [fisheyeLoop_excluded hPerView hSome hEnough hBad, retryRun_next hNext]
  constructor
  · rw [List.map_cons, List.map_cons, hRest.calls]
    rfl
  · exact hRest.outcome

theorem retryRun_refines (hAnswers : cv.Answers) (imageSize : Option (ℕ × ℕ)) {n : ℕ} {views : List (View Pixels Nd)}
    {excluded : List ℕ} (hCount : views.length + excluded.length = n) :
    Refines cv (retryRun cv imageSize (retry cv objp views excluded)) (fisheyeLoop (cv.perView objp n) imageSize views) := by
  induction hLength : views.length using Nat.strong_induction_on generalizing views excluded with
  | h size ih =>
    have hPerView := perView_fisheyeCalibrate cv objp imageSize hCount
    have hFo := length_fo cv objp views excluded
    have hFi := length_fi cv objp views excluded
    cases hCall : calibrate cv imageSize (retry cv objp views excluded) with
    | ok solved =>
      rw [hCall] at hPerView
      rw [fisheyeLoop_fit hPerView, retryRun_last (by rw [attempt, hCall])]
      exact ⟨rfl, rfl⟩
    | error error =>
      rw [hCall] at hPerView
      cases error with
      | other exc =>
        rw [fisheyeLoop_raised hPerView (.inl rfl), retryRun_last (by rw [attempt, hCall])]
        exact ⟨rfl, rfl⟩
      | cvError message =>
        cases hDigits : inputArray message with
        | none =>
          have hNone : badInput (.raised (.cvError message) : Failure Exc) = none := by
            rw [badInput, hDigits]
            rfl
          rw [fisheyeLoop_raised hPerView (.inl hNone), retryRun_last (attempt_raise hCall (.inl hDigits))]
          exact ⟨rfl, rfl⟩
        | some digits =>
          by_cases hFew : views.length < 4
          · rw [fisheyeLoop_raised hPerView (.inr hFew), retryRun_last (attempt_raise hCall (.inr (hFo ▸ hFew)))]
            exact ⟨rfl, rfl⟩
          · obtain ⟨bad, hInt, hBad⟩ := hAnswers.named (hFo.trans hFi.symm) hCall hDigits
            have hIn : bad < views.length := hFo ▸ hBad
            have hShorter := List.length_eraseIdx_of_lt hIn
            have hCount' : (views.eraseIdx bad).length + (excluded ++ [bad]).length = n := by
              rw [List.length_append, List.length_singleton]
              omega
            exact .exclude hCount hCall hDigits hInt hFew hIn (ih _ (by omega) hCount' rfl)

/-! ## `calibrate_from_folder` -/

theorem fisheyeFit_views (imageSize : Option (ℕ × ℕ)) (views : List (View Pixels Nd)) :
    fisheyeFit cv imageSize (views.map fun _ => objp) (views.map View.corners) =
      retryRun cv imageSize (retry cv objp views []) := by
  simp only [fisheyeFit, retryRun, retry, boardRows, cornerRows, List.map_map]
  rfl

theorem cameraFit_outcome (imageSize : Option (ℕ × ℕ)) (n : ℕ) (views : List (View Pixels Nd)) (model : String) :
    (cameraFit cv imageSize (views.map fun _ => objp) (views.map View.corners) model).outcome =
      result (pinholeFit (cv.perView objp n) imageSize views model).outcome := by
  have hBoards : (views.map View.corners).map (fun _ => objp) = views.map fun _ => objp := List.map_map
  have hPerView : (cv.perView objp n).calibrateCamera (views.map View.corners) imageSize (model == "rational") =
      (raising (cv.calibrateCamera (views.map fun _ => objp) (views.map View.corners) imageSize (model == "rational"))).map
        (false, ·) := by
    rw [← hBoards]
    rfl
  rw [cameraFit, pinholeFit, hPerView]
  dsimp only
  cases cv.calibrateCamera (views.map fun _ => objp) (views.map View.corners) imageSize (model == "rational") with
  | ok solved =>
    rw [← hBoards]
    rfl
  | error error => rfl

/-- The program with two lists ends as the one over views does. -/
theorem calibrateFromFolder_refines (hAnswers : cv.Answers) (objp : Nd) (found : List String) (model : String) :
    (calibrateFromFolder cv objp found model).outcome = result (Calibration.calibrateFromFolder
      (cv.perView objp (readImages cv objp found.mergeSort).used) found model).outcome := by
  generalize hn : (readImages cv objp found.mergeSort).used = n
  obtain ⟨hViews, -, hUsed⟩ := collect_eq (cv.perView objp n) found.mergeSort
  rw [readImages_lists n] at hn
  rw [calibrateFromFolder, Calibration.calibrateFromFolder]
  dsimp only
  rw [readImages_lists n]
  split
  · rfl
  · change (if (collect (cv.perView objp n) found.mergeSort).used < 3 then _ else _ : Run Nd Exc).outcome = _
    split
    · rfl
    · split
      · have hCount : (collect (cv.perView objp n) found.mergeSort).views.length + ([] : List ℕ).length = n := by
          rw [List.length_nil, Nat.add_zero, hViews, ← hUsed]
          exact hn
        have hRefines : Refines cv (retryRun cv _ (retry cv objp _ [])) (fisheyeLoop (cv.perView objp n) _ _) :=
          retryRun_refines hAnswers (collect (cv.perView objp n) found.mergeSort).imageSize hCount
        rw [← fisheyeFit_views] at hRefines
        exact hRefines.outcome
      · exact cameraFit_outcome _ _ _ _

end Views

end RoveMapping.Calibration.PointLists
