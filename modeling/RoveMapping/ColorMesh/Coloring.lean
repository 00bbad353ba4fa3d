import Mathlib.LinearAlgebra.Matrix.Adjugate
import Mathlib.Algebra.Order.Floor.Ring
import RoveMapping.Library.Blend
import RoveMapping.ColorMesh.ImageMsg

/-! # Colouring a mesh

`project_and_sample`, the accumulation and the writing of `main` in `color_mesh.py`, in exact
arithmetic over an ordered field.
-/
namespace RoveMapping.ColorMesh
open Blend
set_option autoImplicit false

abbrev Transform (K : Type) := Matrix (Fin 4) (Fin 4) K

structure Point (K : Type) where
  x : K
  y : K
  z : K

structure Intrinsics (K : Type) where
  fx : K
  fy : K
  cx : K
  cy : K
  D : List K
  distortionModel : String

/-- What `main` has read before it colours: the mesh, the camera frames, the trajectory and the options.
`projectPoints` is OpenCV's, and `interpPose` is `interp_pose` on the trajectory. -/
structure Job (K : Type) (n : ℕ) where
  vertices : Fin n → Point K
  triangles : List (Fin 3 → ℕ)
  baseCamopt : String → Option (Transform K)
  intrinsics : String → Intrinsics K
  interpPose : ℤ → Option (Transform K)
  timeOffsetNs : ℤ
  minDepth : K
  maxDepth : K
  projectPoints : Intrinsics K → Point K → K × K

structure Sample (K : Type) where
  color : Bgr
  weight : K

structure Accumulator (K : Type) (n : ℕ) where
  color : Fin n → Fin 3 → K
  weight : Fin n → K

structure Mesh (K : Type) (n : ℕ) where
  vertices : Fin n → Point K
  triangles : List (Fin 3 → ℕ)
  vertexColors : Fin n → Fin 3 → K

section Model

variable {K : Type} [Field K] [LinearOrder K] {n : ℕ}

/-- `np.linalg.inv`, which raises on a singular matrix. -/
def linalgInv (T : Transform K) : Option (Transform K) := if T.det = 0 then none else some (T.det⁻¹ • T.adjugate)

/-- `(T @ Vh.T).T[:, :3]` at one row of `Vh`. -/
def transformPoint (T : Transform K) (p : Point K) : Point K :=
  let moved := T.mulVec ![p.x, p.y, p.z, 1]
  ⟨moved 0, moved 1, moved 2⟩

def clip (x lower upper : K) : K := min (max x lower) upper

omit [Field K] in
theorem clip_of_mem {x lower upper : K} (hx : x ∈ Set.Icc lower upper) : clip x lower upper = x := by
  rw [clip, max_eq_left hx.1, min_eq_left hx.2]

/-- The pixel that a point of the camera frame is seen at. Dividing by a zero depth gives no number. -/
def project (job : Job K n) (cam : Intrinsics K) (p : Point K) : Option (K × K) :=
  if cam.distortionModel = "plumb_bob" ∧ ∃ d ∈ cam.D, d ≠ 0 then some (job.projectPoints cam p)
  else if p.z = 0 then none
  else some (p.x / p.z * cam.fx + cam.cx, p.y / p.z * cam.fy + cam.cy)

def inImage (height width : ℕ) (uv : K × K) : Prop :=
  (0 ≤ uv.1 ∧ uv.1 < (width : K) - 1) ∧ 0 ≤ uv.2 ∧ uv.2 < (height : K) - 1

instance (height width : ℕ) (uv : K × K) : Decidable (inImage height width uv) := inferInstanceAs (Decidable (_ ∧ _))

def locate (job : Job K n) (cam : Intrinsics K) (height width : ℕ) (p : Point K) : Option (K × K) :=
  if job.minDepth < p.z ∧ p.z < job.maxDepth then (project job cam p).filter fun uv => inImage height width uv else none

theorem locate_inside {job : Job K n} {cam : Intrinsics K} {height width : ℕ} {p : Point K} {uv : K × K}
    (hLocate : locate job cam height width p = some uv) : inImage height width uv := by
  rw [locate] at hLocate
  split at hLocate
  · exact of_decide_eq_true (Option.filter_eq_some_iff.mp hLocate).2
  · cases hLocate

theorem locate_of_depth {job : Job K n} (cam : Intrinsics K) (height width : ℕ) {p : Point K}
    (hDepth : ¬(job.minDepth < p.z ∧ p.z < job.maxDepth)) : locate job cam height width p = none := if_neg hDepth

def depthWeight (z : K) : K := 1 / (z * z + 1 / 1000)

/-- An index into an axis of length `n`; a negative one counts from the end. -/
def axisIndex (n : ℕ) (i : ℤ) : Option (Fin n) :=
  if h : 0 ≤ i ∧ i < n then some ⟨i.toNat, by omega⟩
  else if h : 0 ≤ i + n ∧ i < 0 then some ⟨(i + n).toNat, by omega⟩
  else none

theorem axisIndex_inside {n : ℕ} {i : ℤ} (hLower : 0 ≤ i) (hUpper : i < n) :
    axisIndex n i = some ⟨i.toNat, by omega⟩ := dif_pos ⟨hLower, hUpper⟩

def Image.read (image : Image) (r c : ℤ) : Option Bgr := do
  let r ← axisIndex image.height r
  let c ← axisIndex image.width c
  return image.pixel r c

theorem Image.read_inside {image : Image} {r c : ℤ} (hr : 0 ≤ r) (hr' : r < image.height) (hc : 0 ≤ c)
    (hc' : c < image.width) : image.read r c = some (image.pixel ⟨r.toNat, by omega⟩ ⟨c.toNat, by omega⟩) := by
  rw [Image.read, axisIndex_inside hr hr', axisIndex_inside hc hc']
  rfl

variable [FloorRing K]

/-- `.astype(np.uint8)` of a number. -/
def astypeUint8 (x : K) : UInt8 := UInt8.ofInt (if 0 ≤ x then ⌊x⌋ else ⌈x⌉)

theorem toNat_astypeUint8 [IsStrictOrderedRing K] {x : K} (hx : x ∈ Set.Icc 0 255) : ((astypeUint8 x).toNat : ℤ) = ⌊x⌋ := by
  have hLower : 0 ≤ ⌊x⌋ := Int.floor_nonneg.mpr hx.1
  have hUpper : ⌊x⌋ < 256 := by
    refine Int.floor_lt.mpr (hx.2.trans_lt ?_)
    norm_num
  rw [astypeUint8, if_pos hx.1, UInt8.ofInt, UInt8.toNat_ofNat']
  omega

def bilinearSample (image : Image) (uv : K × K) : Option (Fin 3 → K) := do
  let u0 := ⌊uv.1⌋
  let v0 := ⌊uv.2⌋
  let c00 ← image.read v0 u0
  let c10 ← image.read v0 (u0 + 1)
  let c01 ← image.read (v0 + 1) u0
  let c11 ← image.read (v0 + 1) (u0 + 1)
  return fun k =>
    bilinear (uv.1 - u0) (uv.2 - v0) ((c00 k).toNat : K) ((c10 k).toNat : K) ((c01 k).toNat : K) ((c11 k).toNat : K)

theorem floor_inside {size : ℕ} {x : K} (hLower : 0 ≤ x) (hUpper : x < (size : K) - 1) :
    0 ≤ ⌊x⌋ ∧ ⌊x⌋ + 1 < size := by
  have hFloor : ⌊x⌋ < (size : ℤ) - 1 := by
    refine Int.floor_lt.mpr ?_
    push_cast
    exact hUpper
  exact ⟨Int.floor_nonneg.mpr hLower, by omega⟩

/-- Inside the image the sample never fails: it interpolates any grid that shows the channel's pixels. -/
theorem bilinearSample_eq {image : Image} {uv : K × K} (hInside : inImage image.height image.width uv)
    {grid : Fin 3 → ℕ → ℕ → K} (hGrid : ∀ r c k, ((image.pixel r c k).toNat : K) = grid k r c) :
    bilinearSample image uv = some fun k => interpolate (grid k) uv.1 uv.2 := by
  obtain ⟨⟨hu, hu'⟩, hv, hv'⟩ := hInside
  obtain ⟨hc, hc'⟩ := floor_inside hu hu'
  obtain ⟨hr, hr'⟩ := floor_inside hv hv'
  have hNext : ∀ {i : ℤ}, 0 ≤ i → (i + 1).toNat = i.toNat + 1 := by
    intro i hi
    omega
  rw [bilinearSample, Image.read_inside hr (by omega) hc (by omega),
    Image.read_inside hr (by omega) (by omega) hc', Image.read_inside (by omega) hr' hc (by omega),
    Image.read_inside (by omega) hr' (by omega) hc']
  simp only [Option.bind_eq_bind, Option.bind_some, Option.pure_def, interpolate, hGrid, hNext hr, hNext hc]

def sampleRow (job : Job K n) (cam : Intrinsics K) (image : Image) (p : Point K) : Option (Sample K) :=
  match locate job cam image.height image.width p with
  | none => some ⟨fun _ => 0, 0⟩
  | some uv => do
      let c ← bilinearSample image uv
      return ⟨fun k => astypeUint8 (c k), depthWeight p.z⟩

theorem sampleRow_isSome (job : Job K n) (cam : Intrinsics K) (image : Image) (p : Point K) :
    (sampleRow job cam image p).isSome := by
  rw [sampleRow]
  split
  · rfl
  · rename_i uv hLocate
    let grid : Fin 3 → ℕ → ℕ → K := fun k r c =>
      if h : r < image.height ∧ c < image.width then ((image.pixel ⟨r, h.1⟩ ⟨c, h.2⟩ k).toNat : K) else 0
    have hGrid : ∀ r c k, ((image.pixel r c k).toNat : K) = grid k r c := by
      intro r c k
      simp [grid]
    rw [bilinearSample_eq (locate_inside hLocate) hGrid]
    rfl

def allRows {α : Type} (rows : Fin n → Option α) : Option (Fin n → α) :=
  if h : ∀ i, (rows i).isSome then some fun i => (rows i).get (h i) else none

theorem allRows_eq_some {α : Type} {rows : Fin n → Option α} {found : Fin n → α} :
    allRows rows = some found ↔ ∀ i, rows i = some (found i) := by
  constructor
  · intro hRows i
    rw [allRows] at hRows
    split at hRows
    · cases hRows
      exact Option.some_get _ |>.symm
    · cases hRows
  · intro hFound
    have hSome : ∀ i, (rows i).isSome := fun i => by simp [hFound i]
    rw [allRows, dif_pos hSome]
    simp [hFound]

def projectAndSample (job : Job K n) (mapCamopt : Transform K) (cam : Intrinsics K) (image : Image) :
    Option (Fin n → Sample K) := do
  let camoptMap ← linalgInv mapCamopt
  let pc := fun i => transformPoint camoptMap (job.vertices i)
  if ∃ i, job.minDepth < (pc i).z ∧ (pc i).z < job.maxDepth then
    allRows fun i => sampleRow job cam image (pc i)
  else return fun _ => ⟨fun _ => 0, 0⟩

theorem projectAndSample_eq {job : Job K n} {mapCamopt camoptMap : Transform K} (cam : Intrinsics K) (image : Image)
    (hInv : linalgInv mapCamopt = some camoptMap) :
    projectAndSample job mapCamopt cam image =
      allRows fun i => sampleRow job cam image (transformPoint camoptMap (job.vertices i)) := by
  simp only [projectAndSample, hInv, Option.bind_eq_bind, Option.bind_some]
  split
  · rfl
  · rename_i hNone
    refine (allRows_eq_some.mpr fun i => ?_).symm
    rw [sampleRow, locate_of_depth cam _ _ fun h => hNone ⟨i, h⟩]

/-- `color_acc += c * w; weight_acc += w` -/
def Accumulator.add (acc : Accumulator K n) (rows : Fin n → Sample K) : Accumulator K n where
  color := fun i k => acc.color i k + ((rows i).color k).toNat * (rows i).weight
  weight := fun i => acc.weight i + (rows i).weight

/-- One keyframe of a camera; frames outside the trajectory are skipped. -/
def addFrame (job : Job K n) (cam : String) (baseCamopt : Transform K) (acc : Accumulator K n) (kf : ℕ × Image) :
    Option (Accumulator K n) :=
  match job.interpPose (kf.1 + job.timeOffsetNs) with
  | none => some acc
  | some mapBase => (projectAndSample job (mapBase * baseCamopt) (job.intrinsics cam) kf.2).map acc.add

def camFrameIdFromTopic (topic : String) : String :=
  let stripped := (topic.toList.dropWhile (· == '/')).rdropWhile (· == '/')
  String.ofList ((stripped.splitOn '/').headD []) ++ "_optical_frame"

def addTopic (job : Job K n) (acc : Accumulator K n) (frames : String × List (ℕ × Image)) : Option (Accumulator K n) :=
  let cam := camFrameIdFromTopic frames.1
  match job.baseCamopt cam with
  | none => some acc
  | some baseCamopt => frames.2.foldlM (addFrame job cam baseCamopt) acc

def accumulate (job : Job K n) (frames : List (String × List (ℕ × Image))) : Option (Accumulator K n) :=
  frames.foldlM (addTopic job) ⟨fun _ _ => 0, fun _ => 0⟩

/-- `colors`; 128 where no frame gave a sample. -/
def finalizeColors (acc : Accumulator K n) : Fin n → Fin 3 → UInt8 := fun i k =>
  if 0 < acc.weight i then astypeUint8 (clip (acc.color i k / acc.weight i) 0 255) else 128

def writeColoredMesh (vertices : Fin n → Point K) (triangles : List (Fin 3 → ℕ)) (colors : Fin n → Fin 3 → UInt8) :
    Mesh K n where
  vertices := vertices
  triangles := triangles
  vertexColors := fun i k => clip ((colors i k).toNat / 255) 0 1

def Mesh.byte (mesh : Mesh K n) (i : Fin n) (k : Fin 3) : K := mesh.vertexColors i k * 255

theorem byte_writeColoredMesh [IsStrictOrderedRing K] (vertices : Fin n → Point K) (triangles : List (Fin 3 → ℕ))
    (colors : Fin n → Fin 3 → UInt8) (i : Fin n) (k : Fin 3) :
    (writeColoredMesh vertices triangles colors).byte i k = (colors i k).toNat := by
  have hUpper : ((colors i k).toNat : K) ≤ 255 := by exact_mod_cast Nat.le_of_lt_succ (UInt8.toNat_lt (colors i k))
  have hScaled : ((colors i k).toNat : K) / 255 ∈ Set.Icc 0 1 := by
    constructor
    · positivity
    · exact (div_le_one (by positivity)).mpr hUpper
  change clip (((colors i k).toNat : K) / 255) 0 1 * 255 = _
  rw [clip_of_mem hScaled, div_mul_cancel₀ _ (by norm_num)]

/-- Steps 6 to 8 of `main`. -/
def colorMesh (job : Job K n) (frames : List (String × List (ℕ × Image))) : Option (Mesh K n) := do
  let acc ← accumulate job frames
  return writeColoredMesh job.vertices job.triangles (finalizeColors acc)

def Posed (job : Job K n) : Prop :=
  ∀ cam baseCamopt tNs mapBase, job.baseCamopt cam = some baseCamopt → job.interpPose tNs = some mapBase →
    (linalgInv (mapBase * baseCamopt)).isSome

theorem foldlM_isSome {α β : Type} {f : β → α → Option β} (hStep : ∀ acc x, (f acc x).isSome) (xs : List α) (acc : β) :
    (xs.foldlM f acc).isSome := by
  induction xs generalizing acc with
  | nil => rfl
  | cons x xs ih =>
      obtain ⟨next, hNext⟩ := Option.isSome_iff_exists.mp (hStep acc x)
      rw [List.foldlM_cons, hNext]
      exact ih next

theorem projectAndSample_isSome (job : Job K n) {mapCamopt : Transform K} (cam : Intrinsics K) (image : Image)
    (hInv : (linalgInv mapCamopt).isSome) : (projectAndSample job mapCamopt cam image).isSome := by
  obtain ⟨camoptMap, hInv⟩ := Option.isSome_iff_exists.mp hInv
  rw [projectAndSample_eq cam image hInv, allRows, dif_pos fun i => sampleRow_isSome job cam image _]
  rfl

/-- With such poses a run always writes a mesh: no pixel outside an image is read. -/
theorem colorMesh_isSome {job : Job K n} (hPosed : Posed job) (frames : List (String × List (ℕ × Image))) :
    (colorMesh job frames).isSome := by
  have hFrame : ∀ cam baseCamopt, job.baseCamopt cam = some baseCamopt → ∀ acc kf,
      (addFrame job cam baseCamopt acc kf).isSome := by
    intro cam baseCamopt hBase acc kf
    rw [addFrame]
    split
    · rfl
    · rename_i mapBase hPose
      rw [Option.isSome_map]
      exact projectAndSample_isSome job _ _ (hPosed cam baseCamopt _ mapBase hBase hPose)
  have hTopic : ∀ acc topic, (addTopic job acc topic).isSome := by
    intro acc topic
    simp only [addTopic]
    split
    · rfl
    · rename_i baseCamopt hBase
      exact foldlM_isSome (hFrame _ baseCamopt hBase) topic.2 acc
  obtain ⟨acc, hAcc⟩ := Option.isSome_iff_exists.mp (foldlM_isSome hTopic frames ⟨fun _ _ => 0, fun _ => 0⟩)
  rw [colorMesh, accumulate, hAcc]
  rfl

end Model

end RoveMapping.ColorMesh
