import RoveMapping.Calibration.FromFolder
import RoveMapping.Library.Fallible
import RoveMapping.Library.PythonFloat
import RoveMapping.Library.WhileTrue

/-! # The point lists of a calibration

`calibrate_from_folder` with its two lists, the board's points and the corners, and with the loop that excludes
images. OpenCV and NumPy are parameters; every array is an `Nd`.
-/
namespace RoveMapping.Calibration.PointLists
set_option autoImplicit false

/-- What a call of OpenCV raises: a `cv2.error` with its text, or any other exception. -/
inductive Raised (Exc : Type) where
  | cvError (message : String)
  | other (exc : Exc)

inductive Failure (Exc : Type) where
  | raised (error : Raised Exc)
  | indexError
  | valueError
  | zeroDivisionError

structure Solved (Nd : Type) where
  mtx : Nd
  dist : Nd
  rvecs : List Nd
  tvecs : List Nd

structure OpenCv (Pixels Nd Exc : Type) where
  /-- `imread` and `cvtColor`; `none` for a file that cannot be read. -/
  imread : String → Option (Gray Pixels)
  findChessboardCorners : Gray Pixels → Option Nd
  cornerSubPix : Gray Pixels → Nd → Nd
  /-- `reshape(1, -1, n).astype(np.float64)` -/
  reshape : Nd → ℕ → Nd
  /-- `shape[k]` -/
  shape : Nd → ℕ → ℕ
  /-- The first argument is the number of calls before this one. -/
  fisheyeCalibrate : ℕ → List Nd → List Nd → Option (ℕ × ℕ) → Except (Raised Exc) (Solved Nd)
  fisheyeProjectPoints : Nd → Nd → Nd → Nd → Nd → Except (Raised Exc) Nd
  /-- The last argument is whether `CALIB_RATIONAL_MODEL` is set. -/
  calibrateCamera : List Nd → List Nd → Option (ℕ × ℕ) → Bool → Except (Raised Exc) (Solved Nd)
  projectPoints : Nd → Nd → Nd → Nd → Nd → Except (Raised Exc) Nd
  norm : Nd → Nd → Except (Raised Exc) Float

/-- The lists and counters of the loop over the images. -/
structure Lists (Nd : Type) where
  objpoints : List Nd
  imgpoints : List Nd
  imageSize : Option (ℕ × ℕ)
  used : ℕ
  skipped : ℕ

/-- The lists of the loop that calls `cv2.fisheye.calibrate`. -/
structure Retry (Nd : Type) where
  fo : List Nd
  fi : List Nd
  excluded : List ℕ

structure Totals where
  totalErr : Float
  totalPts : ℕ

/-- What is saved and returned. -/
structure Result (Nd : Type) where
  mtx : Nd
  dist : Nd
  meanErr : Float
  imageSize : Option (ℕ × ℕ)
  model : String

structure Run (Nd Exc : Type) where
  /-- The lists at each call of `cv2.fisheye.calibrate`. -/
  attempts : List (Retry Nd)
  outcome : Except (Failure Exc) (Option (Result Nd))

/-! ## The text of an error -/

/-- `\d`, which takes the decimal digits of every script. -/
def isDecimal (c : Char) : Bool := (PythonFloat.toAscii c).isDigit

def matchInputArray (text : List Char) : Option (List Char) :=
  (text.dropPrefix? "input array ".toList).bind fun rest =>
    let digits := rest.takeWhile isDecimal
    if digits = [] then none else some digits

/-- The group of `re.search(r"input array (\d+)", message)`. -/
def inputArray (message : String) : Option (List Char) := message.toList.tails.findSome? matchInputArray

/-- `int(digits)`, with the limit of 4300 digits. -/
def int (digits : List Char) : Option ℕ :=
  if 4300 < digits.length then none else some (Nat.ofDigitChars 10 (digits.map PythonFloat.toAscii) 0)

example : (inputArray "CALIB_CHECK_COND - Ill-conditioned matrix for input array 12").bind int = some 12 := by decide +kernel

section Model

variable {Pixels Nd Exc α : Type} (cv : OpenCv Pixels Nd Exc)

/-! ## The images -/

def addImage (objp : Nd) (s : Lists Nd) (p : String) : Lists Nd :=
  match cv.imread p with
  | none => { s with skipped := s.skipped + 1 }
  | some gray =>
    let s := { s with imageSize := some gray.size }
    match cv.findChessboardCorners gray with
    | none => { s with skipped := s.skipped + 1 }
    | some corners =>
      { s with
        objpoints := s.objpoints ++ [objp]
        imgpoints := s.imgpoints ++ [cv.cornerSubPix gray corners]
        used := s.used + 1 }

def readImages (objp : Nd) (paths : List String) : Lists Nd := paths.foldl (addImage cv objp) ⟨[], [], none, 0, 0⟩

/-! ## The fit of a fisheye camera -/

/-- `xs[i]` -/
def item (xs : List α) (i : ℕ) : Except (Failure Exc) α :=
  match xs[i]? with
  | some x => .ok x
  | none => .error .indexError

/-- `del xs[i]` -/
def del (xs : List α) (i : ℕ) : Except (Failure Exc) (List α) :=
  if i < xs.length then .ok (xs.eraseIdx i) else .error .indexError

def exclude (s : Retry Nd) (bad : ℕ) : Except (Failure Exc) (Retry Nd) := do
  let fo ← del s.fo bad
  let fi ← del s.fi bad
  return ⟨fo, fi, s.excluded ++ [bad]⟩

/-- The handler of `cv2.error`. -/
def handle (s : Retry Nd) (message : String) : Except (Failure Exc) (Retry Nd) :=
  match inputArray message with
  | none => .error (.raised (.cvError message))
  | some digits =>
    if s.fo.length < 4 then .error (.raised (.cvError message))
    else match int digits with
      | none => .error .valueError
      | some bad => exclude s bad

def calibrate (imageSize : Option (ℕ × ℕ)) (s : Retry Nd) : Except (Raised Exc) (Solved Nd) :=
  cv.fisheyeCalibrate s.excluded.length s.fo s.fi imageSize

def attempt (imageSize : Option (ℕ × ℕ)) (s : Retry Nd) : Retry Nd ⊕ Except (Failure Exc) (Retry Nd × Solved Nd) :=
  match calibrate cv imageSize s with
  | .ok solved => .inr (.ok (s, solved))
  -- Only `cv2.error` is caught.
  | .error (.other exc) => .inr (.error (.raised (.other exc)))
  | .error (.cvError message) =>
    match handle s message with
    | .ok next => .inl next
    | .error failure => .inr (.error failure)

theorem del_ok {xs ys : List α} {i : ℕ} (h : (del xs i : Except (Failure Exc) (List α)) = .ok ys) :
    i < xs.length ∧ ys = xs.eraseIdx i := by
  unfold del at h
  split at h
  · rename_i hIndex
    cases h
    exact ⟨hIndex, rfl⟩
  · cases h

/-- A view is excluded from both lists, and only while more than three remain. -/
theorem handle_ok {s next : Retry Nd} {message : String} (h : (handle s message : Except (Failure Exc) _) = .ok next) :
    ∃ bad, 4 ≤ s.fo.length ∧ bad < s.fo.length ∧ bad < s.fi.length ∧
      next = ⟨s.fo.eraseIdx bad, s.fi.eraseIdx bad, s.excluded ++ [bad]⟩ := by
  unfold handle at h
  split at h
  · cases h
  · split at h
    · cases h
    · rename_i hEnough
      split at h
      · cases h
      · rename_i bad _
        obtain ⟨fo, hFo, hRest⟩ := Fallible.bind_ok h
        obtain ⟨fi, hFi, hNext⟩ := Fallible.bind_ok hRest
        obtain ⟨hIn, rfl⟩ := del_ok hFo
        obtain ⟨hIn', rfl⟩ := del_ok hFi
        cases hNext
        exact ⟨bad, not_lt.mp hEnough, hIn, hIn', rfl⟩

theorem attempt_next {imageSize : Option (ℕ × ℕ)} {s next : Retry Nd} (h : attempt cv imageSize s = .inl next) :
    ∃ bad, 4 ≤ s.fo.length ∧ bad < s.fo.length ∧ bad < s.fi.length ∧
      next = ⟨s.fo.eraseIdx bad, s.fi.eraseIdx bad, s.excluded ++ [bad]⟩ := by
  unfold attempt at h
  split at h
  · cases h
  · cases h
  · split at h
    · rename_i hHandle
      cases h
      exact handle_ok hHandle
    · cases h

def retryLoop (imageSize : Option (ℕ × ℕ)) : WhileTrue.Body (Retry Nd) (Except (Failure Exc) (Retry Nd × Solved Nd)) where
  round := attempt cv imageSize
  size s := s.fo.length
  smaller h := by
    obtain ⟨bad, -, hIn, -, rfl⟩ := attempt_next cv h
    rw [List.length_eraseIdx_of_lt hIn]
    omega

/-! ## The reprojections -/

def raising (x : Except (Raised Exc) α) : Except (Failure Exc) α := x.mapError .raised

/-- One view; `project` is `projectPoints` with the camera of the fit, and `axis` the one whose points are counted. -/
def addView (project : Nd → Nd → Nd → Except (Raised Exc) Nd) (axis : ℕ) (objs imgs rvecs tvecs : List Nd) (totals : Totals)
    (i : ℕ) : Except (Failure Exc) Totals := do
  let proj ← raising (project (← item objs i) (← item rvecs i) (← item tvecs i))
  let err ← raising (cv.norm (← item imgs i) proj)
  return ⟨totals.totalErr + err.pow 2, totals.totalPts + cv.shape proj axis⟩

def reproject (project : Nd → Nd → Nd → Except (Raised Exc) Nd) (axis : ℕ) (objs imgs rvecs tvecs : List Nd) :
    Except (Failure Exc) Totals :=
  (List.range objs.length).foldlM (addView cv project axis objs imgs rvecs tvecs) ⟨0, 0⟩

def meanErr (project : Nd → Nd → Nd → Nd → Nd → Except (Raised Exc) Nd) (axis : ℕ) (objs imgs : List Nd)
    (solved : Solved Nd) : Except (Failure Exc) Float := do
  let totals ← reproject cv (project · · · solved.mtx solved.dist) axis objs imgs solved.rvecs solved.tvecs
  if totals.totalPts = 0 then .error .zeroDivisionError
  else return (totals.totalErr / Float.ofNat totals.totalPts).sqrt

/-! ## `calibrate_from_folder` -/

def finish (project : Nd → Nd → Nd → Nd → Nd → Except (Raised Exc) Nd) (axis : ℕ) (imageSize : Option (ℕ × ℕ))
    (model : String) (objs imgs : List Nd) (solved : Solved Nd) : Except (Failure Exc) (Option (Result Nd)) :=
  (meanErr cv project axis objs imgs solved).map fun meanErr => some ⟨solved.mtx, solved.dist, meanErr, imageSize, model⟩

def fisheyeFit (imageSize : Option (ℕ × ℕ)) (objpoints imgpoints : List Nd) : Run Nd Exc :=
  let fo := objpoints.map fun o => cv.reshape o 3
  let fi := imgpoints.map fun c => cv.reshape c 2
  let loop := (retryLoop cv imageSize).run ⟨fo, fi, []⟩
  ⟨loop.states, loop.result.bind fun (s, solved) => finish cv cv.fisheyeProjectPoints 1 imageSize "fisheye" s.fo s.fi solved⟩

def cameraFit (imageSize : Option (ℕ × ℕ)) (objpoints imgpoints : List Nd) (model : String) : Run Nd Exc :=
  let solved := raising (cv.calibrateCamera objpoints imgpoints imageSize (model == "rational"))
  ⟨[], solved.bind (finish cv cv.projectPoints 0 imageSize model objpoints imgpoints)⟩

/-- `found` is what the glob over the folder gives, in any order; `objp` are the points of `build_object_points`. -/
def calibrateFromFolder (objp : Nd) (found : List String) (model : String) : Run Nd Exc :=
  let paths := found.mergeSort
  if paths = [] then ⟨[], .ok none⟩
  else
    let s := readImages cv objp paths
    if s.used < 3 then ⟨[], .ok none⟩
    else if model = "fisheye" then fisheyeFit cv s.imageSize s.objpoints s.imgpoints
    else cameraFit cv s.imageSize s.objpoints s.imgpoints model

/-! ## What the loop keeps -/

/-- A call gives a pose for each view, or an error whose text names a view of the call or none. -/
structure OpenCv.Answers (cv : OpenCv Pixels Nd Exc) : Prop where
  posed : ∀ {calls : ℕ} {fo fi : List Nd} {imageSize : Option (ℕ × ℕ)} {solved : Solved Nd}, fo.length = fi.length →
    cv.fisheyeCalibrate calls fo fi imageSize = .ok solved → solved.rvecs.length = fo.length ∧ solved.tvecs.length = fo.length
  named : ∀ {calls : ℕ} {fo fi : List Nd} {imageSize : Option (ℕ × ℕ)} {message : String} {digits : List Char},
    fo.length = fi.length → cv.fisheyeCalibrate calls fo fi imageSize = .error (.cvError message) →
      inputArray message = some digits → ∃ bad, int digits = some bad ∧ bad < fo.length

/-- The lists hold the two parts of the same views, and all the others are excluded. -/
structure Paired (views : List (Nd × Nd)) (s : Retry Nd) : Prop where
  same : ∃ kept : List (Nd × Nd), kept.Sublist views ∧ s.fo = kept.map (fun view => cv.reshape view.1 3) ∧
    s.fi = kept.map fun view => cv.reshape view.2 2
  enough : 3 ≤ s.fo.length
  counted : s.fo.length + s.excluded.length = views.length

def start (views : List (Nd × Nd)) : Retry Nd :=
  ⟨views.map fun view => cv.reshape view.1 3, views.map fun view => cv.reshape view.2 2, []⟩

variable {cv}

theorem Paired.length_eq {views : List (Nd × Nd)} {s : Retry Nd} (h : Paired cv views s) : s.fo.length = s.fi.length := by
  obtain ⟨kept, -, hFo, hFi⟩ := h.same
  rw [hFo, hFi, List.length_map, List.length_map]

theorem paired_start {views : List (Nd × Nd)} (h : 3 ≤ views.length) : Paired cv views (start cv views) where
  same := ⟨views, List.Sublist.refl views, rfl, rfl⟩
  enough := by rwa [start, List.length_map]
  counted := by rw [start, List.length_map, List.length_nil, Nat.add_zero]

theorem Paired.eraseIdx {views : List (Nd × Nd)} {s : Retry Nd} (h : Paired cv views s) {bad : ℕ} (hEnough : 4 ≤ s.fo.length)
    (hBad : bad < s.fo.length) : Paired cv views ⟨s.fo.eraseIdx bad, s.fi.eraseIdx bad, s.excluded ++ [bad]⟩ where
  same := by
    obtain ⟨kept, hKept, hFo, hFi⟩ := h.same
    refine ⟨kept.eraseIdx bad, (List.eraseIdx_sublist kept bad).trans hKept, ?_, ?_⟩
    · rw [hFo, List.eraseIdx_map]
    · rw [hFi, List.eraseIdx_map]
  enough := by
    rw [List.length_eraseIdx_of_lt hBad]
    omega
  counted := by
    have hCounted := h.counted
    rw [List.length_eraseIdx_of_lt hBad, List.length_append, List.length_singleton]
    omega

theorem Paired.next {views : List (Nd × Nd)} {imageSize : Option (ℕ × ℕ)} {s next : Retry Nd} (h : Paired cv views s)
    (hNext : attempt cv imageSize s = .inl next) : Paired cv views next := by
  obtain ⟨bad, hEnough, hBad, -, rfl⟩ := attempt_next cv hNext
  exact h.eraseIdx hEnough hBad

theorem exclude_eq {s : Retry Nd} {bad : ℕ} (hFo : bad < s.fo.length) (hFi : bad < s.fi.length) :
    (exclude s bad : Except (Failure Exc) _) = .ok ⟨s.fo.eraseIdx bad, s.fi.eraseIdx bad, s.excluded ++ [bad]⟩ := by
  rw [exclude, del, if_pos hFo, del, if_pos hFi]
  rfl

theorem handle_raise {s : Retry Nd} {message : String} (h : inputArray message = none ∨ s.fo.length < 4) :
    (handle s message : Except (Failure Exc) _) = .error (.raised (.cvError message)) := by
  rw [handle]
  split
  · rfl
  · rename_i digits hDigits
    have hFew : s.fo.length < 4 := h.resolve_left (by rw [hDigits]; nofun)
    rw [if_pos hFew]

theorem handle_exclude {s : Retry Nd} {message : String} {digits : List Char} {bad : ℕ}
    (hDigits : inputArray message = some digits) (hEnough : ¬s.fo.length < 4) (hInt : int digits = some bad)
    (hFo : bad < s.fo.length) (hFi : bad < s.fi.length) :
    (handle s message : Except (Failure Exc) _) = .ok ⟨s.fo.eraseIdx bad, s.fi.eraseIdx bad, s.excluded ++ [bad]⟩ := by
  rw [handle, hDigits]
  dsimp only
  rw [if_neg hEnough, hInt]
  exact exclude_eq hFo hFi

/-- The loop is left with a fit, or with the error of the call. -/
theorem attempt_last (hAnswers : cv.Answers) {imageSize : Option (ℕ × ℕ)} {s : Retry Nd} (hLength : s.fo.length = s.fi.length)
    {result : Except (Failure Exc) (Retry Nd × Solved Nd)} (h : attempt cv imageSize s = .inr result) :
    (∃ solved, calibrate cv imageSize s = .ok solved ∧ result = .ok (s, solved)) ∨
      ∃ error, calibrate cv imageSize s = .error error ∧ result = .error (.raised error) := by
  unfold attempt at h
  split at h
  · rename_i solved hCall
    cases h
    exact .inl ⟨solved, hCall, rfl⟩
  · rename_i exc hCall
    cases h
    exact .inr ⟨.other exc, hCall, rfl⟩
  · rename_i message hCall
    refine .inr ⟨.cvError message, hCall, ?_⟩
    by_cases hRaise : inputArray message = none ∨ s.fo.length < 4
    · rw [handle_raise hRaise] at h
      cases h
      rfl
    · obtain ⟨hNamed, hEnough⟩ := not_or.mp hRaise
      obtain ⟨digits, hDigits⟩ := Option.ne_none_iff_exists'.mp hNamed
      obtain ⟨bad, hInt, hBad⟩ := hAnswers.named hLength hCall hDigits
      rw [handle_exclude hDigits hEnough hInt hBad (hLength ▸ hBad)] at h
      cases h

/-! ## The reprojections stay within the lists -/

theorem raising_ne_indexError (x : Except (Raised Exc) α) : raising x ≠ .error .indexError := by
  cases x with
  | error error => nofun
  | ok a => nofun

theorem item_ok {xs : List α} {i : ℕ} (h : i < xs.length) : (item xs i : Except (Failure Exc) α) = .ok xs[i] := by
  rw [item, List.getElem?_eq_getElem h]

theorem addView_ne_indexError {project : Nd → Nd → Nd → Except (Raised Exc) Nd} {axis : ℕ} {objs imgs rvecs tvecs : List Nd}
    {totals : Totals} {i : ℕ} (hObjs : i < objs.length) (hImgs : i < imgs.length) (hRvecs : i < rvecs.length)
    (hTvecs : i < tvecs.length) : addView cv project axis objs imgs rvecs tvecs totals i ≠ .error .indexError := by
  rw [addView, item_ok hObjs, item_ok hRvecs, item_ok hTvecs, item_ok hImgs]
  change (raising (project objs[i] rvecs[i] tvecs[i]) >>= fun proj => raising (cv.norm imgs[i] proj) >>= fun err => _) ≠ _
  intro h
  rcases Fallible.bind_error h with hProject | ⟨proj, -, hError⟩
  · exact raising_ne_indexError _ hProject
  · rcases Fallible.bind_error hError with hNorm | ⟨err, -, hError⟩
    · exact raising_ne_indexError _ hNorm
    · cases hError

theorem reproject_ne_indexError {project : Nd → Nd → Nd → Except (Raised Exc) Nd} {axis : ℕ} {objs imgs rvecs tvecs : List Nd}
    (hImgs : imgs.length = objs.length) (hRvecs : rvecs.length = objs.length) (hTvecs : tvecs.length = objs.length) :
    reproject cv project axis objs imgs rvecs tvecs ≠ .error .indexError := by
  intro h
  obtain ⟨totals, i, hMem, hError⟩ := Fallible.foldlM_error h
  have hi : i < objs.length := List.mem_range.mp hMem
  exact addView_ne_indexError hi (hImgs ▸ hi) (hRvecs ▸ hi) (hTvecs ▸ hi) hError

theorem finish_ne_indexError {project : Nd → Nd → Nd → Nd → Nd → Except (Raised Exc) Nd} {axis : ℕ}
    {imageSize : Option (ℕ × ℕ)} {model : String} {objs imgs : List Nd} {solved : Solved Nd} (hImgs : imgs.length = objs.length)
    (hRvecs : solved.rvecs.length = objs.length) (hTvecs : solved.tvecs.length = objs.length) :
    finish cv project axis imageSize model objs imgs solved ≠ .error .indexError := by
  intro h
  cases hMean : meanErr cv project axis objs imgs solved with
  | ok value =>
    rw [finish, hMean] at h
    cases h
  | error failure =>
    rw [finish, hMean] at h
    cases h
    rcases Fallible.bind_error hMean with hTotals | ⟨totals, -, hError⟩
    · exact reproject_ne_indexError hImgs hRvecs hTvecs hTotals
    · split at hError <;> cases hError

/-! ## Exclusions -/

variable (cv) in
/-- What a run does with `n` views: at most `n - 3` exclusions, and at the end a fit or the error of the last call. -/
structure Excludes (imageSize : Option (ℕ × ℕ)) (views : List (Nd × Nd)) (run : Run Nd Exc) : Prop where
  paired : ∀ s ∈ run.attempts, Paired cv views s
  lengths : ∀ s ∈ run.attempts, s.fo.length = s.fi.length
  atMost : ∀ s ∈ run.attempts, s.excluded.length ≤ views.length - 3
  calls : run.attempts.length ≤ views.length - 3 + 1
  ends : ∃ s, run.attempts.getLast? = some s ∧
    ((∃ solved, calibrate cv imageSize s = .ok solved ∧
        s.fi.length = s.fo.length ∧ solved.rvecs.length = s.fo.length ∧ solved.tvecs.length = s.fo.length ∧
        run.outcome = finish cv cv.fisheyeProjectPoints 1 imageSize "fisheye" s.fo s.fi solved) ∨
      ∃ error, calibrate cv imageSize s = .error error ∧ run.outcome = .error (.raised error))
  inRange : run.outcome ≠ .error .indexError

theorem fisheyeFit_eq (imageSize : Option (ℕ × ℕ)) (views : List (Nd × Nd)) :
    fisheyeFit cv imageSize (views.map Prod.fst) (views.map Prod.snd) =
      ⟨((retryLoop cv imageSize).run (start cv views)).states, ((retryLoop cv imageSize).run (start cv views)).result.bind
        fun (s, solved) => finish cv cv.fisheyeProjectPoints 1 imageSize "fisheye" s.fo s.fi solved⟩ := by
  rw [fisheyeFit, List.map_map, List.map_map]
  rfl

variable (cv) in
theorem paired_run (imageSize : Option (ℕ × ℕ)) {views : List (Nd × Nd)} (hEnough : 3 ≤ views.length) :
    ∀ s ∈ ((retryLoop cv imageSize).run (start cv views)).states, Paired cv views s :=
  WhileTrue.run_invariant (fun _ _ hs hRound => hs.next hRound) (paired_start hEnough)

theorem calls_run (imageSize : Option (ℕ × ℕ)) {views : List (Nd × Nd)} (hEnough : 3 ≤ views.length) :
    ((retryLoop cv imageSize).run (start cv views)).states.length ≤ views.length - 3 + 1 := by
  have hLength := WhileTrue.length_run_le (start cv views) fun s hMem => (paired_run cv imageSize hEnough s hMem).enough
  have hSize : (retryLoop cv imageSize).size (start cv views) = views.length := List.length_map _
  omega

theorem fisheyeFit_excludes (hAnswers : cv.Answers) (imageSize : Option (ℕ × ℕ)) {views : List (Nd × Nd)}
    (hEnough : 3 ≤ views.length) :
    Excludes cv imageSize views (fisheyeFit cv imageSize (views.map Prod.fst) (views.map Prod.snd)) := by
  rw [fisheyeFit_eq]
  have hPaired := paired_run cv imageSize hEnough
  obtain ⟨s, hLast, hRound⟩ := WhileTrue.run_ends (retryLoop cv imageSize) (start cv views)
  have hs := hPaired s (List.mem_of_getLast? hLast)
  have hEnds := attempt_last hAnswers hs.length_eq hRound
  constructor
  · exact hPaired
  · exact fun t hMem => (hPaired t hMem).length_eq
  · intro t hMem
    have hEnough := (hPaired t hMem).enough
    have hCounted := (hPaired t hMem).counted
    omega
  · exact calls_run imageSize hEnough
  · refine ⟨s, hLast, ?_⟩
    rcases hEnds with ⟨solved, hCall, hResult⟩ | ⟨error, hCall, hResult⟩
    · obtain ⟨hRvecs, hTvecs⟩ := hAnswers.posed hs.length_eq hCall
      refine .inl ⟨solved, hCall, hs.length_eq.symm, hRvecs, hTvecs, ?_⟩
      rw [hResult]
      rfl
    · refine .inr ⟨error, hCall, ?_⟩
      rw [hResult]
      rfl
  · rcases hEnds with ⟨solved, hCall, hResult⟩ | ⟨error, hCall, hResult⟩
    · obtain ⟨hRvecs, hTvecs⟩ := hAnswers.posed hs.length_eq hCall
      rw [hResult]
      exact finish_ne_indexError hs.length_eq.symm hRvecs hTvecs
    · rw [hResult]
      nofun

/-! ## The lists of the images -/

theorem addImage_lengths (objp : Nd) {s : Lists Nd} (h : s.objpoints.length = s.used ∧ s.imgpoints.length = s.used)
    (p : String) : (addImage cv objp s p).objpoints.length = (addImage cv objp s p).used ∧
      (addImage cv objp s p).imgpoints.length = (addImage cv objp s p).used := by
  unfold addImage
  split
  · exact h
  · dsimp only
    split
    · exact h
    · dsimp only
      rw [List.length_append, List.length_append, List.length_singleton, List.length_singleton, h.1, h.2]
      exact ⟨rfl, rfl⟩

variable (cv) in
theorem readImages_lengths (objp : Nd) (paths : List String) :
    (readImages cv objp paths).objpoints.length = (readImages cv objp paths).used ∧
      (readImages cv objp paths).imgpoints.length = (readImages cv objp paths).used :=
  List.foldlRecOn (motive := fun s : Lists Nd => s.objpoints.length = s.used ∧ s.imgpoints.length = s.used) paths
    (addImage cv objp) ⟨rfl, rfl⟩ fun _ hs p _ => addImage_lengths objp hs p

theorem calibrateFromFolder_fisheye (objp : Nd) {found : List String}
    (hUsed : 3 ≤ (readImages cv objp found.mergeSort).used) : calibrateFromFolder cv objp found "fisheye" =
      fisheyeFit cv (readImages cv objp found.mergeSort).imageSize (readImages cv objp found.mergeSort).objpoints
        (readImages cv objp found.mergeSort).imgpoints := by
  rw [calibrateFromFolder]
  split
  · rename_i hEmpty
    rw [hEmpty] at hUsed
    exact absurd hUsed (Nat.not_succ_le_zero 2)
  · dsimp only
    rw [if_neg (not_lt.mpr hUsed), if_pos rfl]

/-- The retry loop ends within `n - 3` exclusions for any `n` views, and in particular for those of a folder. -/
theorem fisheye_exclusions (cv : OpenCv Pixels Nd Exc) (hAnswers : cv.Answers) :
    (∀ (imageSize : Option (ℕ × ℕ)) (views : List (Nd × Nd)), 3 ≤ views.length →
      Excludes cv imageSize views (fisheyeFit cv imageSize (views.map Prod.fst) (views.map Prod.snd))) ∧
    ∀ (objp : Nd) (found : List String), 3 ≤ (readImages cv objp found.mergeSort).used →
      ∃ views, views.map Prod.fst = (readImages cv objp found.mergeSort).objpoints ∧
        views.map Prod.snd = (readImages cv objp found.mergeSort).imgpoints ∧
        views.length = (readImages cv objp found.mergeSort).used ∧
        Excludes cv (readImages cv objp found.mergeSort).imageSize views (calibrateFromFolder cv objp found "fisheye") := by
  constructor
  · exact fun imageSize _ hEnough => fisheyeFit_excludes hAnswers imageSize hEnough
  · intro objp found hUsed
    obtain ⟨hObjpoints, hImgpoints⟩ := readImages_lengths cv objp found.mergeSort
    rw [calibrateFromFolder_fisheye objp hUsed]
    generalize readImages cv objp found.mergeSort = s at *
    have hFst : (s.objpoints.zip s.imgpoints).map Prod.fst = s.objpoints := List.map_fst_zip (by omega)
    have hSnd : (s.objpoints.zip s.imgpoints).map Prod.snd = s.imgpoints := List.map_snd_zip (by omega)
    have hLength : (s.objpoints.zip s.imgpoints).length = s.used := by
      rw [List.length_zip, hObjpoints, hImgpoints, min_self]
    have hExcludes := fisheyeFit_excludes hAnswers s.imageSize (hLength ▸ hUsed)
    rw [hFst, hSnd] at hExcludes
    exact ⟨_, hFst, hSnd, hLength, hExcludes⟩

end Model

section FourViews

/-- The second of four views is ill-conditioned. -/
def fourCv : OpenCv Unit Unit Unit where
  imread _ := some ⟨640, 480, ()⟩
  findChessboardCorners _ := some ()
  cornerSubPix _ corners := corners
  reshape points _ := points
  shape _ _ := 54
  fisheyeCalibrate _ fo fi _ :=
    if fo.length = 4 then .error (.cvError "CALIB_CHECK_COND - Ill-conditioned matrix for input array 1")
    else .ok ⟨(), (), fo, fi⟩
  fisheyeProjectPoints _ _ _ _ _ := .ok ()
  calibrateCamera objpoints imgpoints _ _ := .ok ⟨(), (), objpoints, imgpoints⟩
  projectPoints _ _ _ _ _ := .ok ()
  norm _ _ := .ok 0

theorem fourCv_answers : fourCv.Answers where
  posed := by
    intro calls fo fi imageSize solved hLength hCall
    simp only [fourCv] at hCall
    split at hCall
    · cases hCall
    · cases hCall
      exact ⟨rfl, hLength.symm⟩
  named := by
    intro calls fo fi imageSize message digits hLength hCall hDigits
    simp only [fourCv] at hCall
    split at hCall
    · rename_i hFour
      cases hCall
      have hOne : inputArray "CALIB_CHECK_COND - Ill-conditioned matrix for input array 1" = some ['1'] := by decide +kernel
      rw [hOne] at hDigits
      cases hDigits
      exact ⟨1, by decide +kernel, by omega⟩
    · cases hCall

theorem fisheye_exclusions_four_views :
    Excludes fourCv (some (640, 480)) (List.replicate 4 ((), ()))
      (fisheyeFit fourCv (some (640, 480)) (List.replicate 4 ()) (List.replicate 4 ())) ∧
    ∃ views, views.map Prod.fst = (readImages fourCv () mixedFolder.mergeSort).objpoints ∧
      views.map Prod.snd = (readImages fourCv () mixedFolder.mergeSort).imgpoints ∧
      views.length = (readImages fourCv () mixedFolder.mergeSort).used ∧
      Excludes fourCv (readImages fourCv () mixedFolder.mergeSort).imageSize views
        (calibrateFromFolder fourCv () mixedFolder "fisheye") :=
  ⟨(fisheye_exclusions fourCv fourCv_answers).1 _ (List.replicate 4 ((), ())) (by decide),
    (fisheye_exclusions fourCv fourCv_answers).2 () mixedFolder (by rw [mixedFolder_sorted]; decide +kernel)⟩

end FourViews

end RoveMapping.Calibration.PointLists
