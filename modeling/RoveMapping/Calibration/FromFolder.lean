import Mathlib.Data.List.Induction
import Mathlib.Data.String.Basic

/-! # Calibrating from a folder of captures

`calibrate_from_folder`. OpenCV is a parameter; the board points are the same for every image and stay with it.
-/
namespace RoveMapping.Calibration
set_option autoImplicit false

structure Gray (Pixels : Type) where
  width : ℕ
  height : ℕ
  pixels : Pixels
deriving DecidableEq

/-- `gray.shape[::-1]` -/
def Gray.size {Pixels : Type} (gray : Gray Pixels) : ℕ × ℕ := (gray.width, gray.height)

/-- What `calibrate_from_folder` uses of OpenCV. -/
structure Cv (Pixels Corners Fit Err Exc : Type) where
  /-- `imread` and `cvtColor`; `none` for a file that cannot be read. -/
  imread : String → Option (Gray Pixels)
  findChessboardCorners : Gray Pixels → Option Corners
  cornerSubPix : Gray Pixels → Corners → Corners
  fisheyeCalibrate : List Corners → Option (ℕ × ℕ) → Except Exc Fit
  /-- The last argument is whether `CALIB_RATIONAL_MODEL` is set. -/
  calibrateCamera : List Corners → Option (ℕ × ℕ) → Bool → Except Exc Fit
  /-- The image that the message of an error names as `input array`. -/
  badInput : Exc → Option ℕ
  /-- The mean reprojection error of a fit. -/
  meanError : Fit → List Corners → Err

/-- An image with the corners that were found in it. -/
structure View (Pixels Corners : Type) where
  gray : Gray Pixels
  corners : Corners
deriving DecidableEq

structure Collected (Pixels Corners : Type) where
  views : List (View Pixels Corners)
  imageSize : Option (ℕ × ℕ)
  used : ℕ
  skipped : ℕ

/-- A call of one of the two calibrators. -/
structure Call (Pixels Corners : Type) where
  views : List (View Pixels Corners)
  imageSize : Option (ℕ × ℕ)

structure Saved (Pixels Corners Fit Err : Type) where
  fit : Fit
  views : List (View Pixels Corners)
  meanErr : Err
  imageSize : Option (ℕ × ℕ)
  model : String

inductive Outcome (Pixels Corners Fit Err Exc : Type) where
  | rejected
  | raised (exc : Exc)
  /-- `del fo[bad]` with an index that is not in the list. -/
  | indexError
  | saved (result : Saved Pixels Corners Fit Err)

structure Run (Pixels Corners Fit Err Exc : Type) where
  calls : List (Call Pixels Corners)
  outcome : Outcome Pixels Corners Fit Err Exc

section Model

variable {Pixels Corners Fit Err Exc : Type} (cv : Cv Pixels Corners Fit Err Exc)

def addImage (s : Collected Pixels Corners) (p : String) : Collected Pixels Corners :=
  match cv.imread p with
  | none => { s with skipped := s.skipped + 1 }
  | some gray =>
    let s := { s with imageSize := some gray.size }
    match cv.findChessboardCorners gray with
    | none => { s with skipped := s.skipped + 1 }
    | some corners => { s with views := s.views ++ [⟨gray, cv.cornerSubPix gray corners⟩], used := s.used + 1 }

def collect (paths : List String) : Collected Pixels Corners := paths.foldl (addImage cv) ⟨[], none, 0, 0⟩

/-- Images that the calibrator finds ill-conditioned are dropped one by one. -/
def fisheyeLoop (imageSize : Option (ℕ × ℕ)) (views : List (View Pixels Corners)) : Run Pixels Corners Fit Err Exc :=
  let call : Call Pixels Corners := ⟨views, imageSize⟩
  match cv.fisheyeCalibrate (views.map View.corners) imageSize with
  | .ok fit => ⟨[call], .saved ⟨fit, views, cv.meanError fit (views.map View.corners), imageSize, "fisheye"⟩⟩
  | .error exc =>
    match cv.badInput exc with
    | none => ⟨[call], .raised exc⟩
    | some bad =>
      if views.length < 4 then ⟨[call], .raised exc⟩
      else if h : bad < views.length then
        have : (views.eraseIdx bad).length < views.length := by
          rw [List.length_eraseIdx_of_lt h]
          omega
        let run := fisheyeLoop imageSize (views.eraseIdx bad)
        ⟨call :: run.calls, run.outcome⟩
      else ⟨[call], .indexError⟩
termination_by views.length

def pinholeFit (imageSize : Option (ℕ × ℕ)) (views : List (View Pixels Corners)) (model : String) :
    Run Pixels Corners Fit Err Exc :=
  let call : Call Pixels Corners := ⟨views, imageSize⟩
  match cv.calibrateCamera (views.map View.corners) imageSize (model == "rational") with
  | .ok fit => ⟨[call], .saved ⟨fit, views, cv.meanError fit (views.map View.corners), imageSize, model⟩⟩
  | .error exc => ⟨[call], .raised exc⟩

/-- `found` is what the glob over the folder gives, in any order. -/
def calibrateFromFolder (found : List String) (model : String) : Run Pixels Corners Fit Err Exc :=
  let paths := found.mergeSort
  if paths = [] then ⟨[], .rejected⟩
  else
    let s := collect cv paths
    if s.used < 3 then ⟨[], .rejected⟩
    else if model = "fisheye" then fisheyeLoop cv s.imageSize s.views
    else pinholeFit cv s.imageSize s.views model

/-! ## What the loop collects -/

def readable (paths : List String) : List (Gray Pixels) := paths.filterMap cv.imread

/-- The images in which a board is found. -/
def boards (paths : List String) : List (View Pixels Corners) :=
  (readable cv paths).filterMap fun gray =>
    (cv.findChessboardCorners gray).map fun corners => ⟨gray, cv.cornerSubPix gray corners⟩

def lastSize (paths : List String) : Option (ℕ × ℕ) := (readable cv paths).getLast?.map Gray.size

theorem collect_append (paths : List String) (p : String) : collect cv (paths ++ [p]) = addImage cv (collect cv paths) p := by
  rw [collect, List.foldl_append, List.foldl_cons, List.foldl_nil, collect]

theorem collect_eq (paths : List String) : (collect cv paths).views = boards cv paths ∧
    (collect cv paths).imageSize = lastSize cv paths ∧ (collect cv paths).used = (boards cv paths).length := by
  induction paths using List.reverseRecOn with
  | nil => exact ⟨rfl, rfl, rfl⟩
  | append_singleton paths p ih =>
    obtain ⟨hViews, hSize, hUsed⟩ := ih
    rw [collect_append, addImage, boards, lastSize, readable, List.filterMap_append]
    cases hRead : cv.imread p with
    | none =>
      simp only [List.filterMap_cons, hRead, List.filterMap_nil, List.append_nil]
      exact ⟨hViews, hSize, hUsed⟩
    | some gray =>
      simp only [List.filterMap_cons, hRead, List.filterMap_nil, List.filterMap_append, List.getLast?_concat, Option.map_some]
      cases hFind : cv.findChessboardCorners gray with
      | none =>
        simp only [Option.map_none, List.append_nil]
        exact ⟨hViews, trivial, hUsed⟩
      | some corners =>
        simp only [Option.map_some, List.length_append, List.length_singleton]
        refine ⟨?_, trivial, ?_⟩
        · rw [hViews]
          rfl
        · rw [hUsed]
          rfl

/-! ## One image size -/

/-- Every image that gives corners to a fit has the size that is passed with them and saved with the result. -/
structure OneSize (run : Run Pixels Corners Fit Err Exc) : Prop where
  passed : ∀ call ∈ run.calls, ∀ view ∈ call.views, call.imageSize = some view.gray.size
  stored : ∀ result, run.outcome = .saved result → ∀ view ∈ result.views, result.imageSize = some view.gray.size

/-- The calls of a fit start from `views`, and go on with some of them. -/
structure Fits (imageSize : Option (ℕ × ℕ)) (views : List (View Pixels Corners)) (run : Run Pixels Corners Fit Err Exc) :
    Prop where
  first : ⟨views, imageSize⟩ ∈ run.calls
  within : ∀ call ∈ run.calls, call.imageSize = imageSize ∧ call.views ⊆ views
  stored : ∀ result, run.outcome = .saved result → result.imageSize = imageSize ∧ result.views ⊆ views

variable {cv}

theorem Fits.sizes_subset_iff {imageSize : Option (ℕ × ℕ)} {views : List (View Pixels Corners)}
    {run : Run Pixels Corners Fit Err Exc} (h : Fits imageSize views run) :
    OneSize run ↔ ∀ view ∈ views, imageSize = some view.gray.size := by
  constructor
  · intro hOne view hView
    exact hOne.passed _ h.first view hView
  · intro hAll
    constructor
    · intro call hCall view hView
      obtain ⟨hSize, hSubset⟩ := h.within call hCall
      rw [hSize]
      exact hAll view (hSubset hView)
    · intro result hResult view hView
      obtain ⟨hSize, hSubset⟩ := h.stored result hResult
      rw [hSize]
      exact hAll view (hSubset hView)

theorem fits_failed (imageSize : Option (ℕ × ℕ)) (views : List (View Pixels Corners))
    {outcome : Outcome Pixels Corners Fit Err Exc} (hOutcome : ∀ result, outcome ≠ .saved result) :
    Fits imageSize views ⟨[⟨views, imageSize⟩], outcome⟩ where
  first := List.mem_singleton_self _
  within call hCall := by
    rw [List.mem_singleton.mp hCall]
    exact ⟨rfl, List.Subset.refl _⟩
  stored result hResult := absurd hResult (hOutcome result)

theorem fits_saved (imageSize : Option (ℕ × ℕ)) (views : List (View Pixels Corners)) (fit : Fit) (meanErr : Err) (model : String) :
    Fits imageSize views
      (⟨[⟨views, imageSize⟩], .saved ⟨fit, views, meanErr, imageSize, model⟩⟩ : Run Pixels Corners Fit Err Exc) where
  first := List.mem_singleton_self _
  within call hCall := by
    rw [List.mem_singleton.mp hCall]
    exact ⟨rfl, List.Subset.refl _⟩
  stored result hResult := by
    cases hResult
    exact ⟨rfl, List.Subset.refl _⟩

theorem fits_pinholeFit (imageSize : Option (ℕ × ℕ)) (views : List (View Pixels Corners)) (model : String) :
    Fits imageSize views (pinholeFit cv imageSize views model) := by
  rw [pinholeFit]
  split
  · exact fits_saved ..
  · exact fits_failed _ _ nofun

theorem fisheyeLoop_fit {imageSize : Option (ℕ × ℕ)} {views : List (View Pixels Corners)} {fit : Fit}
    (h : cv.fisheyeCalibrate (views.map View.corners) imageSize = .ok fit) : fisheyeLoop cv imageSize views =
      ⟨[⟨views, imageSize⟩], .saved ⟨fit, views, cv.meanError fit (views.map View.corners), imageSize, "fisheye"⟩⟩ := by
  rw [fisheyeLoop, h]

theorem fisheyeLoop_raised {imageSize : Option (ℕ × ℕ)} {views : List (View Pixels Corners)} {exc : Exc}
    (h : cv.fisheyeCalibrate (views.map View.corners) imageSize = .error exc)
    (hGiveUp : cv.badInput exc = none ∨ views.length < 4) :
    fisheyeLoop cv imageSize views = ⟨[⟨views, imageSize⟩], .raised exc⟩ := by
  rw [fisheyeLoop, h]
  dsimp only
  split
  · rfl
  · rename_i bad hBad
    have hFew : views.length < 4 := hGiveUp.resolve_left (by rw [hBad]; nofun)
    rw [if_pos hFew]

theorem fisheyeLoop_excluded {imageSize : Option (ℕ × ℕ)} {views : List (View Pixels Corners)} {exc : Exc} {bad : ℕ}
    (h : cv.fisheyeCalibrate (views.map View.corners) imageSize = .error exc) (hBad : cv.badInput exc = some bad)
    (hEnough : ¬views.length < 4) (hIn : bad < views.length) :
    fisheyeLoop cv imageSize views = ⟨⟨views, imageSize⟩ :: (fisheyeLoop cv imageSize (views.eraseIdx bad)).calls,
      (fisheyeLoop cv imageSize (views.eraseIdx bad)).outcome⟩ := by
  rw [fisheyeLoop, h]
  dsimp only
  rw [hBad]
  dsimp only
  rw [if_neg hEnough, dif_pos hIn]

theorem fisheyeLoop_indexError {imageSize : Option (ℕ × ℕ)} {views : List (View Pixels Corners)} {exc : Exc} {bad : ℕ}
    (h : cv.fisheyeCalibrate (views.map View.corners) imageSize = .error exc) (hBad : cv.badInput exc = some bad)
    (hEnough : ¬views.length < 4) (hOut : ¬bad < views.length) :
    fisheyeLoop cv imageSize views = ⟨[⟨views, imageSize⟩], .indexError⟩ := by
  rw [fisheyeLoop, h]
  dsimp only
  rw [hBad]
  dsimp only
  rw [if_neg hEnough, dif_neg hOut]

theorem Fits.exclude {imageSize : Option (ℕ × ℕ)} {views : List (View Pixels Corners)} {bad : ℕ}
    {rest : Run Pixels Corners Fit Err Exc} (h : Fits imageSize (views.eraseIdx bad) rest) :
    Fits imageSize views ⟨⟨views, imageSize⟩ :: rest.calls, rest.outcome⟩ := by
  have hSubset : views.eraseIdx bad ⊆ views := List.eraseIdx_subset
  constructor
  · exact List.mem_cons_self
  · intro call hCall
    rcases List.mem_cons.mp hCall with rfl | hLater
    · exact ⟨rfl, List.Subset.refl _⟩
    · obtain ⟨hSize, hViews⟩ := h.within call hLater
      exact ⟨hSize, List.Subset.trans hViews hSubset⟩
  · intro result hResult
    obtain ⟨hSize, hViews⟩ := h.stored result hResult
    exact ⟨hSize, List.Subset.trans hViews hSubset⟩

theorem fits_fisheyeLoop (imageSize : Option (ℕ × ℕ)) (views : List (View Pixels Corners)) :
    Fits imageSize views (fisheyeLoop cv imageSize views) := by
  induction hLength : views.length using Nat.strong_induction_on generalizing views with
  | h size ih =>
    cases hCall : cv.fisheyeCalibrate (views.map View.corners) imageSize with
    | ok fit =>
      rw [fisheyeLoop_fit hCall]
      exact fits_saved ..
    | error exc =>
      cases hBad : cv.badInput exc with
      | none =>
        rw [fisheyeLoop_raised hCall (.inl hBad)]
        exact fits_failed _ _ nofun
      | some bad =>
        by_cases hFew : views.length < 4
        · rw [fisheyeLoop_raised hCall (.inr hFew)]
          exact fits_failed _ _ nofun
        · by_cases hIn : bad < views.length
          · have hShorter := List.length_eraseIdx_of_lt hIn
            rw [fisheyeLoop_excluded hCall hBad hFew hIn]
            exact (ih _ (by omega) (views.eraseIdx bad) rfl).exclude
          · rw [fisheyeLoop_indexError hCall hBad hFew hIn]
            exact fits_failed _ _ nofun

theorem oneSize_rejected : OneSize (⟨[], .rejected⟩ : Run Pixels Corners Fit Err Exc) where
  passed := nofun
  stored := nofun

theorem calibrateFromFolder_few {found : List String} (model : String) (hFew : (boards cv found.mergeSort).length < 3) :
    calibrateFromFolder cv found model = ⟨[], .rejected⟩ := by
  obtain ⟨-, -, hUsed⟩ := collect_eq cv found.mergeSort
  rw [calibrateFromFolder]
  split
  · rfl
  · dsimp only
    rw [hUsed, if_pos hFew]

/-- With views enough, `calibrateFromFolder` is one of the two fits. -/
theorem calibrateFromFolder_fits {found : List String} (model : String) (hEnough : ¬(boards cv found.mergeSort).length < 3) :
    Fits (lastSize cv found.mergeSort) (boards cv found.mergeSort) (calibrateFromFolder cv found model) := by
  obtain ⟨hViews, hSize, hUsed⟩ := collect_eq cv found.mergeSort
  rw [calibrateFromFolder]
  split
  · rename_i hEmpty
    rw [hEmpty] at hEnough
    exact absurd (by simp [boards, readable]) hEnough
  · dsimp only
    rw [hUsed, hViews, hSize, if_neg hEnough]
    split
    · exact fits_fisheyeLoop _ _
    · exact fits_pinholeFit _ _ _

/-- The size that a calibration goes by is that of the last readable image, with or without a board. -/
theorem oneSize_iff (cv : Cv Pixels Corners Fit Err Exc) (found : List String) (model : String) :
    OneSize (calibrateFromFolder cv found model) ↔
      (boards cv found.mergeSort).length < 3 ∨
        ∀ view ∈ boards cv found.mergeSort, lastSize cv found.mergeSort = some view.gray.size := by
  rcases Classical.em ((boards cv found.mergeSort).length < 3) with hFew | hEnough
  · rw [calibrateFromFolder_few model hFew]
    exact iff_of_true oneSize_rejected (.inl hFew)
  · rw [or_iff_right hEnough]
    exact (calibrateFromFolder_fits model hEnough).sizes_subset_iff

end Model

/-! ## Captures of two sizes -/

section TwoSizes

/-- Three captures with a board, and a last one of another size without. -/
def mixedCv : Cv Unit Unit Unit Unit Unit where
  imread path := some ⟨640, if path = "cap_3.png" then 360 else 480, ()⟩
  findChessboardCorners gray := if gray.height = 480 then some () else none
  cornerSubPix _ corners := corners
  fisheyeCalibrate _ _ := .ok ()
  calibrateCamera _ _ _ := .ok ()
  badInput _ := none
  meanError _ _ := ()

def mixedFolder : List String := ["cap_0.png", "cap_1.png", "cap_2.png", "cap_3.png"]

theorem mixedFolder_sorted : mixedFolder.mergeSort = mixedFolder := by
  apply List.mergeSort_of_pairwise
  decide +kernel

theorem oneSize_mixed : ¬∀ (cv : Cv Unit Unit Unit Unit Unit) (found : List String) (model : String),
    OneSize (calibrateFromFolder cv found model) := by
  intro hAlways
  have hBoards : boards mixedCv mixedFolder = List.replicate 3 ⟨⟨640, 480, ()⟩, ()⟩ := by decide +kernel
  have hLast : lastSize mixedCv mixedFolder = some (640, 360) := by decide +kernel
  have hFits := @calibrateFromFolder_fits _ _ _ _ _ mixedCv mixedFolder "fisheye"
  rw [mixedFolder_sorted, hBoards, hLast] at hFits
  have hSame := (hFits (by decide)).sizes_subset_iff.mp (hAlways mixedCv mixedFolder "fisheye")
  have hSize := hSame ⟨⟨640, 480, ()⟩, ()⟩ (by simp)
  exact absurd hSize (by decide)

end TwoSizes

end RoveMapping.Calibration
