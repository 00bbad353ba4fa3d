import RoveMapping.Library.Raster
import RoveMapping.MappingApi.Minimap

/-! # The part of the map around the robot

`_on_map` copies the cells around the robot into a fresh array. The window is clipped on each axis
by itself, once in the coordinates of the array and once in those of the map.
-/
namespace RoveMapping.MappingApi
open Slicing Resampling
set_option autoImplicit false

/-- The bounds of one axis: `d0:d1` in the crop, `s0:s1` in the map. -/
structure AxisWindow where
  d0 : ℤ
  d1 : ℤ
  s0 : ℤ
  s1 : ℤ
deriving DecidableEq, Repr

def half : ℕ := localSize / 2

def axisWindow (c : ℤ) (m : ℕ) : AxisWindow :=
  let s0 := c - half
  let s1 := c + half
  { d0 := max 0 (-s0)
    d1 := localSize - max 0 (s1 - m)
    s0 := max 0 s0
    s1 := min (m : ℤ) s1 }

def blank : Raster Int8 := .full localSize localSize (-1)

/-- `crop`, before it is flipped and rotated. -/
def cropAround (grid : Raster Int8) (cx cy : ℤ) : Option (Raster Int8) :=
  let r := axisWindow cy grid.height
  let c := axisWindow cx grid.width
  if r.s0 < r.s1 ∧ c.s0 < c.s1 then
    blank.assign r.d0 r.d1 c.d0 c.d1 (grid.slice r.s0 r.s1 c.s0 c.s1)
  else some blank

/-- The map at a cell, and unknown outside it. -/
def cellAt (grid : Raster Int8) (r c : ℤ) : Int8 :=
  if 0 ≤ r ∧ 0 ≤ c then (grid.get? r.toNat c.toNat).getD (-1) else -1

/-- The bounds of an axis on which something is copied. -/
structure AxisWindow.Sound (w : AxisWindow) (m : ℕ) : Prop where
  crop : 0 ≤ w.d0 ∧ w.d0 ≤ w.d1 ∧ w.d1 ≤ localSize
  map : 0 ≤ w.s0 ∧ w.s0 ≤ w.s1 ∧ w.s1 ≤ m
  aligned : w.d1 - w.d0 = w.s1 - w.s0

theorem axisWindow_sound {c : ℤ} {m : ℕ} (hOverlap : (axisWindow c m).s0 < (axisWindow c m).s1) :
    (axisWindow c m).Sound m := by
  simp only [axisWindow, half, localSize] at hOverlap ⊢
  constructor
  · dsimp only [localSize]
    omega
  · dsimp only
    omega
  · dsimp only
    omega

theorem AxisWindow.Sound.spans {w : AxisWindow} {m : ℕ} (h : w.Sound m) :
    span localSize w.d0 w.d1 = ⟨w.d0.toNat, (w.d1 - w.d0).toNat⟩ ∧ span m w.s0 w.s1 = ⟨w.s0.toNat, (w.d1 - w.d0).toNat⟩ := by
  obtain ⟨⟨hd0, hd, hd1⟩, ⟨hs0, hs, hs1⟩, hAligned⟩ := h
  have hLengths : ∀ {x y : ℤ}, 0 ≤ x → x ≤ y → y.toNat - x.toNat = (y - x).toNat := by
    intro x y hx hy
    omega
  constructor
  · rw [span, bound_of_mem hd0 (hd.trans hd1), bound_of_mem (hd0.trans hd) hd1, hLengths hd0 hd]
  · rw [span, bound_of_mem hs0 (hs.trans hs1), bound_of_mem (hs0.trans hs) hs1, hLengths hs0 hs, hAligned]

/-- A position of the crop is copied exactly when its cell is on the map. -/
theorem axisWindow_mem (c : ℤ) (m : ℕ) {i : ℕ} (hi : i < localSize) :
    (axisWindow c m).d0 ≤ i ∧ i < (axisWindow c m).d1 ↔ 0 ≤ c - half + i ∧ c - half + i < m := by
  simp only [axisWindow, half, localSize] at hi ⊢
  omega

theorem axisWindow_shift (c : ℤ) (m : ℕ) : (axisWindow c m).s0 - (axisWindow c m).d0 = c - half := by
  simp only [axisWindow]
  omega

section Axis

variable {c : ℤ} {m i : ℕ}

theorem covers_axisWindow (hOverlap : (axisWindow c m).s0 < (axisWindow c m).s1) (hi : i < localSize) :
    (span localSize (axisWindow c m).d0 (axisWindow c m).d1).Covers i ↔ 0 ≤ c - half + i ∧ c - half + i < m := by
  have hSound := axisWindow_sound hOverlap
  obtain ⟨hLower, hOrder, -⟩ := hSound.crop
  rw [← axisWindow_mem c m hi, hSound.spans.1, Span.Covers]
  dsimp only
  omega

theorem lengths_axisWindow (hOverlap : (axisWindow c m).s0 < (axisWindow c m).s1) :
    (span m (axisWindow c m).s0 (axisWindow c m).s1).length =
      (span localSize (axisWindow c m).d0 (axisWindow c m).d1).length := by
  rw [(axisWindow_sound hOverlap).spans.1, (axisWindow_sound hOverlap).spans.2]

/-- The copied position shows the cell that lies as far from the robot. -/
theorem source_axisWindow (hOverlap : (axisWindow c m).s0 < (axisWindow c m).s1) (hi : i < localSize)
    (hCell : 0 ≤ c - half + i ∧ c - half + i < m) :
    (span m (axisWindow c m).s0 (axisWindow c m).s1).start +
      (i - (span localSize (axisWindow c m).d0 (axisWindow c m).d1).start) = (c - half + i).toNat := by
  have hSound := axisWindow_sound hOverlap
  obtain ⟨hLower, -⟩ := hSound.crop
  obtain ⟨hMapLower, -⟩ := hSound.map
  have hShift := axisWindow_shift c m
  obtain ⟨hCopied, -⟩ := (axisWindow_mem c m hi).mpr hCell
  rw [hSound.spans.1, hSound.spans.2]
  dsimp only
  omega

end Axis

/-- What the window owes for a map and a robot cell: nothing is copied but between parts of one shape, and each
position of the crop shows its cell. -/
structure WindowExact (grid : Raster Int8) (cx cy : ℤ) : Prop where
  bounds : (axisWindow cy grid.height).s0 < (axisWindow cy grid.height).s1 →
    (axisWindow cx grid.width).s0 < (axisWindow cx grid.width).s1 →
      (axisWindow cy grid.height).Sound grid.height ∧ (axisWindow cx grid.width).Sound grid.width
  shapes : let r := axisWindow cy grid.height
    let c := axisWindow cx grid.width
    r.s0 < r.s1 → c.s0 < c.s1 →
      (grid.slice r.s0 r.s1 c.s0 c.s1).height = (blank.slice r.d0 r.d1 c.d0 c.d1).height ∧
        (grid.slice r.s0 r.s1 c.s0 c.s1).width = (blank.slice r.d0 r.d1 c.d0 c.d1).width
  crop : ∃ crop, cropAround grid cx cy = some crop ∧ crop.height = localSize ∧ crop.width = localSize ∧
    ∀ i j : ℕ, i < localSize → j < localSize → crop.get? i j = some (cellAt grid (cy - half + i) (cx - half + j))

theorem cellAt_outside {grid : Raster Int8} {r c : ℤ} (h : ¬ ((0 ≤ r ∧ r < grid.height) ∧ 0 ≤ c ∧ c < grid.width)) :
    cellAt grid r c = -1 := by
  unfold cellAt
  split
  · rw [Raster.get?_eq_none (by omega)]
    rfl
  · rfl

theorem cellAt_inside {grid : Raster Int8} {r c : ℤ} (hr : 0 ≤ r ∧ r < grid.height) (hc : 0 ≤ c ∧ c < grid.width) :
    some (cellAt grid r c) = grid.get? r.toNat c.toNat := by
  have hRow : r.toNat < grid.height := by omega
  have hColumn : c.toNat < grid.width := by omega
  rw [cellAt, if_pos ⟨hr.1, hc.1⟩, Raster.get?_eq_some hRow hColumn]
  rfl

theorem blank_get? {i j : ℕ} (hi : i < localSize) (hj : j < localSize) : blank.get? i j = some (-1) :=
  Raster.get?_full hi hj

theorem crop_exact (grid : Raster Int8) (cx cy : ℤ) : ∃ crop, cropAround grid cx cy = some crop ∧
    crop.height = localSize ∧ crop.width = localSize ∧ ∀ i j : ℕ, i < localSize → j < localSize →
      crop.get? i j = some (cellAt grid (cy - half + i) (cx - half + j)) := by
  simp only [cropAround]
  split
  · rename_i hOverlap
    obtain ⟨hRows, hCols⟩ := hOverlap
    have hHeights := lengths_axisWindow hRows
    have hWidths := lengths_axisWindow hCols
    obtain ⟨crop, hAssign, hHeight, hWidth, hCells⟩ :=
      Raster.assign_of_shape (a := blank) (b := grid.slice _ _ _ _) hHeights hWidths
    refine ⟨crop, hAssign, hHeight, hWidth, ?_⟩
    intro i j hi hj
    have hRowCovers := covers_axisWindow hRows hi
    have hColumnCovers := covers_axisWindow hCols hj
    have hCell := hCells i j hi hj
    rw [show blank.height = localSize from rfl, show blank.width = localSize from rfl] at hCell
    rw [hCell]
    split
    · rename_i hCovers
      have hRow := hRowCovers.mp hCovers.1
      have hColumn := hColumnCovers.mp hCovers.2
      rw [Raster.get?_slice (source_of_length hHeights hCovers.1).2 (source_of_length hWidths hCovers.2).2,
        source_axisWindow hRows hi hRow, source_axisWindow hCols hj hColumn, cellAt_inside hRow hColumn]
    · rename_i hCovers
      have hOutside : ¬ ((0 ≤ cy - half + i ∧ cy - half + i < grid.height) ∧ 0 ≤ cx - half + j ∧ cx - half + j < grid.width) := by
        rw [← hRowCovers, ← hColumnCovers]
        exact hCovers
      rw [blank_get? hi hj, cellAt_outside hOutside]
  · rename_i hApart
    refine ⟨blank, rfl, rfl, rfl, ?_⟩
    intro i j hi hj
    rw [blank_get? hi hj, cellAt_outside]
    -- a cell on the map would be in the window of both axes
    rintro ⟨hRow, hColumn⟩
    apply hApart
    simp only [axisWindow, half, localSize] at hi hj hRow hColumn ⊢
    omega

/-- The window is exact for every map and every robot cell, however far outside the map. -/
theorem window_exact (grid : Raster Int8) (cx cy : ℤ) : WindowExact grid cx cy where
  bounds hRows hCols := ⟨axisWindow_sound hRows, axisWindow_sound hCols⟩
  shapes := by
    intro r c hRows hCols
    exact ⟨lengths_axisWindow hRows, lengths_axisWindow hCols⟩
  crop := crop_exact grid cx cy

/-! ## The published array -/

section Snapshot

variable {K : Type} [Field K] [LinearOrder K] [FloorRing K]

structure OccupancyGrid (K : Type) where
  resolution : K
  originX : K
  originY : K
  width : ℕ
  height : ℕ
  data : List Int8

/-- `np.array(msg.data, dtype=np.int8).reshape((mh, mw))` -/
def OccupancyGrid.grid (msg : OccupancyGrid K) : Option (Raster Int8) :=
  if msg.data.length = msg.height * msg.width then
    some ⟨msg.height, msg.width, fun i j => msg.data.getD (i * msg.width + j) 0⟩
  else none

/-- `int((x - origin) / res)` -/
def robotCell (x origin res : K) : Option ℤ :=
  if res = 0 then none
  else
    let q := (x - origin) / res
    some (if 0 ≤ q then ⌊q⌋ else ⌈q⌉)

def pixels (crop : Raster Int8) : ℤ → ℤ → ℤ := fun i j => ((crop.get? i.toNat j.toNat).getD (-1)).toInt

def onMap (msg : OccupancyGrid K) (rx ry cosA sinA : K) : Option (ℤ → ℤ → ℤ) := do
  let cx ← robotCell rx msg.originX msg.resolution
  let cy ← robotCell ry msg.originY msg.resolution
  let grid ← msg.grid
  let crop ← cropAround grid cx cy
  return minimap cosA sinA (pixels crop)

/-- What a published pixel shows: the cell of the map that its source lies on. -/
theorem onMap_shows [IsStrictOrderedRing K] {msg : OccupancyGrid K} {rx ry cosA sinA : K} {grid : Raster Int8} {cx cy : ℤ}
    (hx : robotCell rx msg.originX msg.resolution = some cx) (hy : robotCell ry msg.originY msg.resolution = some cy)
    (hGrid : msg.grid = some grid) :
    ∃ data, onMap msg rx ry cosA sinA = some data ∧ ∀ i j k l : ℤ,
      minimapSource cosA sinA ((i : K), (j : K)) = ((k : K), (l : K)) → 0 ≤ k ∧ k < localSize → 0 ≤ l ∧ l < localSize →
        data i j = (cellAt grid (cy - half + k) (cx - half + l)).toInt := by
  obtain ⟨crop, hCrop, -, -, hCells⟩ := crop_exact grid cx cy
  have hData : onMap msg rx ry cosA sinA = some (minimap cosA sinA (pixels crop)) := by
    simp only [onMap, hx, hy, hGrid, hCrop, Option.bind_eq_bind, Option.bind_some, Option.pure_def]
  refine ⟨_, hData, ?_⟩
  intro i j k l hSource hk hl
  have hCell := hCells k.toNat l.toNat (by omega) (by omega)
  rw [minimap_eq hSource hk hl, pixels, hCell, Int.toNat_of_nonneg hk.1, Int.toNat_of_nonneg hl.1]
  rfl

end Snapshot

end RoveMapping.MappingApi
