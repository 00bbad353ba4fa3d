import Mathlib.Data.List.MinMax
import Mathlib.Data.List.ReduceOption
import RoveMapping.Library.Fallible
import RoveMapping.Library.Masks
import RoveMapping.ColorMesh.Channels

/-! # Sampling through masks

`project_and_sample` as it is written: two masks, four reads of the image and the writing back of what they gave.
It agrees with the sampling of each vertex on its own, so the colours of `main` are averages of the samples
and no order matters to them.
-/
namespace RoveMapping.ColorMesh
open Blend Masks
set_option autoImplicit false

variable {K : Type} [Field K] [LinearOrder K] {n : ℕ}

namespace Masked

/-- `valid_idx[in_img]`, `z_in` and the columns `u_in`, `v_in`. -/
structure Visible (K : Type) (n : ℕ) where
  index : List (Fin n)
  depth : List K
  uv : List (K × K)

def valid (job : Job K n) (pc : Fin n → Point K) (i : Fin n) : Bool :=
  job.minDepth < (pc i).z ∧ (pc i).z < job.maxDepth

def inImg (height width : ℕ) (uv : Option (K × K)) : Bool := uv.any fun uv => inImage height width uv

def visible (job : Job K n) (cam : Intrinsics K) (height width : ℕ) (pc : Fin n → Point K) : Option (Visible K n) := do
  let uv := (select (valid job pc) pc).map (project job cam)
  let mask := uv.map (inImg height width)
  let index ← compress mask (flatnonzero (valid job pc))
  let depth ← compress mask (select (valid job pc) fun i => (pc i).z)
  let uv ← compress mask uv
  return ⟨index, depth, uv.reduceOption⟩

/-- `image[rows, cols]` -/
def gather (image : Image) (rows cols : List ℤ) : Option (List Bgr) :=
  (rows.zip cols).mapM fun rc => image.read rc.1 rc.2

/-- The vertices that both masks leave. -/
def shown (job : Job K n) (cam : Intrinsics K) (height width : ℕ) (pc : Fin n → Point K) : List (Fin n) :=
  (flatnonzero (valid job pc)).filter fun i => inImg height width (project job cam (pc i))

def pixel (job : Job K n) (cam : Intrinsics K) (p : Point K) : K × K := (project job cam p).getD 0

section Masks

variable {job : Job K n} {cam : Intrinsics K} {height width : ℕ} {pc : Fin n → Point K}

theorem project_eq_pixel {i : Fin n} (hShown : i ∈ shown job cam height width pc) :
    project job cam (pc i) = some (pixel job cam (pc i)) := by
  have hIn : inImg height width (project job cam (pc i)) = true := (List.mem_filter.mp hShown).2
  cases hProject : project job cam (pc i) with
  | none => simp [hProject, inImg] at hIn
  | some uv => rw [pixel, hProject, Option.getD_some]

theorem visible_eq (job : Job K n) (cam : Intrinsics K) (height width : ℕ) (pc : Fin n → Point K) :
    visible job cam height width pc = some ⟨shown job cam height width pc,
      (shown job cam height width pc).map fun i => (pc i).z,
      (shown job cam height width pc).map fun i => pixel job cam (pc i)⟩ := by
  have hPixels : ((shown job cam height width pc).map fun i => project job cam (pc i)).reduceOption =
      (shown job cam height width pc).map fun i => pixel job cam (pc i) := by
    rw [List.map_congr_left fun i hShown => project_eq_pixel hShown, List.reduceOption, List.filterMap_map,
      Function.id_comp, List.filterMap_eq_map']
  let p : Fin n → Bool := fun i => inImg height width (project job cam (pc i))
  have hUv : (select (valid job pc) pc).map (project job cam) = (flatnonzero (valid job pc)).map fun i => project job cam (pc i) :=
    List.map_map
  have hMask : ((flatnonzero (valid job pc)).map fun i => project job cam (pc i)).map (inImg height width) =
      (flatnonzero (valid job pc)).map p := List.map_map
  rw [← hPixels, visible, hUv]
  simp only [hMask, select, compress_map p, compress_map_self p]
  rfl

theorem mem_shown {i : Fin n} : i ∈ shown job cam height width pc ↔ (locate job cam height width (pc i)).isSome := by
  rw [shown, List.mem_filter, mem_flatnonzero, locate, valid]
  by_cases hDepth : job.minDepth < (pc i).z ∧ (pc i).z < job.maxDepth
  · rw [if_pos hDepth]
    cases hProject : project job cam (pc i) with
    | none => simp [inImg]
    | some uv => simp [inImg, hDepth, Option.filter]
  · simp [hDepth]

theorem locate_of_shown {i : Fin n} (hShown : i ∈ shown job cam height width pc) :
    locate job cam height width (pc i) = some (pixel job cam (pc i)) := by
  obtain ⟨uv, hLocate⟩ := Option.isSome_iff_exists.mp (mem_shown.mp hShown)
  have hProject : project job cam (pc i) = some uv := by
    rw [locate] at hLocate
    split at hLocate
    · exact (Option.filter_eq_some_iff.mp hLocate).1
    · cases hLocate
  rw [hLocate, pixel, hProject, Option.getD_some]

theorem inImage_of_shown {i : Fin n} (hShown : i ∈ shown job cam height width pc) :
    inImage height width (pixel job cam (pc i)) := locate_inside (locate_of_shown hShown)

end Masks

section Rows

variable [FloorRing K]

def corners (uv : List (K × K)) : List (List ℤ × List ℤ) :=
  let u0 := uv.map fun uv => ⌊uv.1⌋
  let v0 := uv.map fun uv => ⌊uv.2⌋
  [(v0, u0), (v0, u0.map (· + 1)), (v0.map (· + 1), u0), (v0.map (· + 1), u0.map (· + 1))]

def reads (uv : List (K × K)) : List (ℤ × ℤ) := (corners uv).flatMap fun rc => rc.1.zip rc.2

/-- `c`, before it is cast. -/
def bilinearSamples (image : Image) (uv : List (K × K)) : Option (List (Fin 3 → K)) := do
  match ← (corners uv).mapM fun rc => gather image rc.1 rc.2 with
  | [c00, c10, c01, c11] =>
    some ((uv.zip (c00.zip (c10.zip (c01.zip c11)))).map fun (uv, c00, c10, c01, c11) k =>
      bilinear (uv.1 - ⌊uv.1⌋) (uv.2 - ⌊uv.2⌋) ((c00 k).toNat : K) ((c10 k).toNat : K) ((c01 k).toNat : K)
        ((c11 k).toNat : K))
  | _ => none

def sample (image : Image) (seen : Visible K n) : Option (Fin n → Sample K) := do
  let c ← bilinearSamples image seen.uv
  let color ← scatter (fun _ _ => 0) seen.index (c.map fun c k => astypeUint8 (c k))
  let weight ← scatter (fun _ => 0) seen.index (seen.depth.map depthWeight)
  return fun i => ⟨color i, weight i⟩

def projectAndSample (job : Job K n) (mapCamopt : Transform K) (cam : Intrinsics K) (image : Image) :
    Option (Fin n → Sample K) := do
  let camoptMap ← linalgInv mapCamopt
  let pc := fun i => transformPoint camoptMap (job.vertices i)
  if ∃ i, valid job pc i then
    let seen ← visible job cam image.height image.width pc
    sample image seen
  else return fun _ => ⟨fun _ => 0, 0⟩

end Rows

/-! ## The reads -/

def InRange (image : Image) (rc : ℤ × ℤ) : Prop := (0 ≤ rc.1 ∧ rc.1 < image.height) ∧ 0 ≤ rc.2 ∧ rc.2 < image.width

/-- The pixel at an index, black where there is none. -/
def pixelAt (image : Image) (r c : ℤ) : Bgr := (image.read r c).getD fun _ => 0

theorem read_eq_pixelAt {image : Image} {rc : ℤ × ℤ} (hRange : InRange image rc) :
    image.read rc.1 rc.2 = some (pixelAt image rc.1 rc.2) := by
  obtain ⟨⟨hr, hr'⟩, hc, hc'⟩ := hRange
  rw [pixelAt, Image.read_inside hr hr' hc hc', Option.getD_some]

theorem gather_eq {ι : Type} {image : Image} {row col : ι → ℤ} {uv : List ι}
    (hRange : ∀ x ∈ uv, InRange image (row x, col x)) :
    gather image (uv.map row) (uv.map col) = some (uv.map fun x => pixelAt image (row x) (col x)) := by
  rw [gather, List.zip_map', List.mapM_map]
  exact Fallible.mapM_eq_some_map fun x hx => read_eq_pixelAt (hRange x hx)

section Neighbours

variable [FloorRing K] {image : Image} {uv : K × K}

def neighbours (uv : K × K) : List (ℤ × ℤ) :=
  [(⌊uv.2⌋, ⌊uv.1⌋), (⌊uv.2⌋, ⌊uv.1⌋ + 1), (⌊uv.2⌋ + 1, ⌊uv.1⌋), (⌊uv.2⌋ + 1, ⌊uv.1⌋ + 1)]

/-- `floor` plus one stays in the image because the last row and column are left out. -/
theorem neighbours_inRange (hInside : inImage image.height image.width uv) : ∀ rc ∈ neighbours uv, InRange image rc := by
  obtain ⟨⟨hu, hu'⟩, hv, hv'⟩ := hInside
  obtain ⟨hc, hc'⟩ := floor_inside hu hu'
  obtain ⟨hr, hr'⟩ := floor_inside hv hv'
  simp only [neighbours, List.forall_mem_cons, InRange]
  refine ⟨?_, ?_, ?_, ?_, nofun⟩ <;> omega

def blended (image : Image) (uv : K × K) (k : Fin 3) : K :=
  bilinear (uv.1 - ⌊uv.1⌋) (uv.2 - ⌊uv.2⌋) ((pixelAt image ⌊uv.2⌋ ⌊uv.1⌋ k).toNat : K)
    ((pixelAt image ⌊uv.2⌋ (⌊uv.1⌋ + 1) k).toNat : K) ((pixelAt image (⌊uv.2⌋ + 1) ⌊uv.1⌋ k).toNat : K)
    ((pixelAt image (⌊uv.2⌋ + 1) (⌊uv.1⌋ + 1) k).toNat : K)

theorem bilinearSample_eq_blended (hInside : inImage image.height image.width uv) :
    bilinearSample image uv = some (blended image uv) := by
  have hRange := neighbours_inRange hInside
  simp only [neighbours, List.forall_mem_cons] at hRange
  obtain ⟨h00, h10, h01, h11, -⟩ := hRange
  simp only [bilinearSample, read_eq_pixelAt h00, read_eq_pixelAt h10, read_eq_pixelAt h01, read_eq_pixelAt h11]
  rfl

theorem bilinearSamples_eq {uvs : List (K × K)} (hInside : ∀ uv ∈ uvs, inImage image.height image.width uv) :
    bilinearSamples image uvs = some (uvs.map (blended image)) := by
  have hRange : ∀ uv ∈ uvs, ∀ rc ∈ neighbours uv, InRange image rc := fun uv huv => neighbours_inRange (hInside uv huv)
  simp only [neighbours, List.forall_mem_cons] at hRange
  simp only [bilinearSamples, corners, List.map_map, Function.comp_def, List.mapM_cons, List.mapM_nil,
    gather_eq fun uv huv => (hRange uv huv).1, gather_eq fun uv huv => (hRange uv huv).2.1,
    gather_eq fun uv huv => (hRange uv huv).2.2.1, gather_eq fun uv huv => (hRange uv huv).2.2.2.1]
  have hZip : ∀ f : K × K → Bgr × Bgr × Bgr × Bgr, uvs.zip (uvs.map f) = uvs.map fun uv => (uv, f uv) := by
    intro f
    simpa using List.zip_map' (f := id) (g := f) (l := uvs)
  simp only [Option.bind_eq_bind, Option.bind_some, Option.pure_def, List.zip_map', hZip, List.map_map]
  rfl

def lowest (image : Image) (uv : K × K) (k : Fin 3) : K :=
  min (min ((pixelAt image ⌊uv.2⌋ ⌊uv.1⌋ k).toNat : K) ((pixelAt image ⌊uv.2⌋ (⌊uv.1⌋ + 1) k).toNat : K))
    (min ((pixelAt image (⌊uv.2⌋ + 1) ⌊uv.1⌋ k).toNat : K) ((pixelAt image (⌊uv.2⌋ + 1) (⌊uv.1⌋ + 1) k).toNat : K))

def highest (image : Image) (uv : K × K) (k : Fin 3) : K :=
  max (max ((pixelAt image ⌊uv.2⌋ ⌊uv.1⌋ k).toNat : K) ((pixelAt image ⌊uv.2⌋ (⌊uv.1⌋ + 1) k).toNat : K))
    (max ((pixelAt image (⌊uv.2⌋ + 1) ⌊uv.1⌋ k).toNat : K) ((pixelAt image (⌊uv.2⌋ + 1) (⌊uv.1⌋ + 1) k).toNat : K))

theorem blended_mem [IsStrictOrderedRing K] (image : Image) (uv : K × K) (k : Fin 3) :
    blended image uv k ∈ Set.Icc (lowest image uv k) (highest image uv k) := by
  have hFract : ∀ x : K, x - ⌊x⌋ ∈ Set.Icc (0 : K) 1 := fun x => ⟨Int.fract_nonneg x, (Int.fract_lt_one x).le⟩
  refine bilinear_mem (hFract uv.1) (hFract uv.2) ⟨?_, ?_⟩ ⟨?_, ?_⟩ ⟨?_, ?_⟩ ⟨?_, ?_⟩ <;> simp [lowest, highest]

theorem blended_mem_byte [IsStrictOrderedRing K] (image : Image) (uv : K × K) (k : Fin 3) :
    blended image uv k ∈ Set.Icc (0 : K) 255 := by
  have hFract : ∀ x : K, x - ⌊x⌋ ∈ Set.Icc (0 : K) 1 := fun x => ⟨Int.fract_nonneg x, (Int.fract_lt_one x).le⟩
  have hByte : ∀ b : UInt8, (b.toNat : K) ∈ Set.Icc (0 : K) 255 := by
    intro b
    have hLe : b.toNat ≤ 255 := Nat.le_of_lt_succ b.toNat_lt
    exact ⟨Nat.cast_nonneg _, by exact_mod_cast hLe⟩
  exact bilinear_mem (hFract uv.1) (hFract uv.2) (hByte _) (hByte _) (hByte _) (hByte _)

end Neighbours

/-! ## Scattering back -/

section Scatter

variable [FloorRing K] {job : Job K n} {cam : Intrinsics K} {image : Image} {pc : Fin n → Point K}

def row (job : Job K n) (cam : Intrinsics K) (image : Image) (pc : Fin n → Point K) (i : Fin n) : Sample K :=
  if i ∈ shown job cam image.height image.width pc then
    ⟨fun k => astypeUint8 (blended image (pixel job cam (pc i)) k), depthWeight (pc i).z⟩
  else ⟨fun _ => 0, 0⟩

theorem sample_visible (job : Job K n) (cam : Intrinsics K) (image : Image) (pc : Fin n → Point K) :
    (visible job cam image.height image.width pc).bind (sample image) = some (row job cam image pc) := by
  have hInside : ∀ uv ∈ (shown job cam image.height image.width pc).map fun i => pixel job cam (pc i),
      inImage image.height image.width uv := by
    intro uv hUv
    obtain ⟨i, hShown, rfl⟩ := List.mem_map.mp hUv
    exact inImage_of_shown hShown
  simp only [visible_eq, Option.bind_some, sample, bilinearSamples_eq hInside, List.map_map, scatter_map,
    Option.bind_eq_bind, Option.pure_def, Option.some.injEq]
  funext i
  rw [row]
  split <;> rfl

theorem sampleRow_eq_row (job : Job K n) (cam : Intrinsics K) (image : Image) (pc : Fin n → Point K) (i : Fin n) :
    sampleRow job cam image (pc i) = some (row job cam image pc i) := by
  rw [sampleRow, row]
  by_cases hShown : i ∈ shown job cam image.height image.width pc
  · rw [if_pos hShown, locate_of_shown hShown]
    simp only [bilinearSample_eq_blended (inImage_of_shown hShown)]
    rfl
  · have hNone : locate job cam image.height image.width (pc i) = none :=
      Option.not_isSome_iff_eq_none.mp (mt mem_shown.mpr hShown)
    rw [if_neg hShown, hNone]

theorem projectAndSample_eq_row {mapCamopt camoptMap : Transform K} (job : Job K n) (cam : Intrinsics K) (image : Image)
    (hInv : linalgInv mapCamopt = some camoptMap) :
    projectAndSample job mapCamopt cam image =
      some (row job cam image fun i => transformPoint camoptMap (job.vertices i)) := by
  simp only [projectAndSample, hInv, Option.bind_eq_bind, Option.bind_some]
  split
  · exact sample_visible job cam image _
  · rename_i hNone
    refine congrArg some (funext fun i => ?_)
    have hHidden : i ∉ shown job cam image.height image.width fun i => transformPoint camoptMap (job.vertices i) := by
      intro hShown
      exact hNone ⟨i, mem_flatnonzero.mp (List.mem_filter.mp hShown).1⟩
    rw [row, if_neg hHidden]

/-- The masks scatter each sample back to its own vertex. -/
theorem projectAndSample_eq (job : Job K n) (mapCamopt : Transform K) (cam : Intrinsics K) (image : Image) :
    projectAndSample job mapCamopt cam image = RoveMapping.ColorMesh.projectAndSample job mapCamopt cam image := by
  cases hInv : linalgInv mapCamopt with
  | none =>
    rw [projectAndSample, RoveMapping.ColorMesh.projectAndSample, hInv]
    rfl
  | some camoptMap =>
    rw [projectAndSample_eq_row job cam image hInv, RoveMapping.ColorMesh.projectAndSample_eq cam image hInv]
    exact (allRows_eq_some.mpr fun i => sampleRow_eq_row job cam image _ i).symm

end Scatter

/-! ## One image -/

section Image

variable [FloorRing K]

variable {job : Job K n} {cam : Intrinsics K} {image : Image} {pc : Fin n → Point K}

/-- What the rows of one image owe to it, where `pc` has the vertices in the frame of its camera. -/
structure SafeSampling (job : Job K n) (cam : Intrinsics K) (image : Image) (pc : Fin n → Point K)
    (rows : Fin n → Sample K) : Prop where
  reads_inside : ∀ seen, visible job cam image.height image.width pc = some seen → ∀ rc ∈ reads seen.uv, InRange image rc
  projected : ∀ i, job.minDepth < (pc i).z → project job cam (pc i) = some (pixel job cam (pc i))
  weight_pos_iff : ∀ i, 0 < (rows i).weight ↔
    (job.minDepth < (pc i).z ∧ (pc i).z < job.maxDepth) ∧ inImage image.height image.width (pixel job cam (pc i))
  hidden : ∀ i, ¬0 < (rows i).weight → rows i = ⟨fun _ => 0, 0⟩
  color : ∀ i, 0 < (rows i).weight → ∃ c, bilinearSample image (pixel job cam (pc i)) = some c ∧
    ∀ k, c k ∈ Set.Icc (lowest image (pixel job cam (pc i)) k) (highest image (pixel job cam (pc i)) k) ∧
      (((rows i).color k).toNat : ℤ) = ⌊c k⌋

omit [FloorRing K] in
theorem project_of_depth (hMin : 0 ≤ job.minDepth) {p : Point K} (hDepth : job.minDepth < p.z) :
    project job cam p = some (pixel job cam p) := by
  have hZ : p.z ≠ 0 := (hMin.trans_lt hDepth).ne'
  simp only [pixel, project, if_neg hZ]
  split
  · rfl
  · rfl

omit [FloorRing K] in
theorem mem_shown_iff (hMin : 0 ≤ job.minDepth) {height width : ℕ} {i : Fin n} :
    i ∈ shown job cam height width pc ↔
      (job.minDepth < (pc i).z ∧ (pc i).z < job.maxDepth) ∧ inImage height width (pixel job cam (pc i)) := by
  constructor
  · intro hShown
    have hValid : valid job pc i = true := mem_flatnonzero.mp (List.mem_filter.mp hShown).1
    exact ⟨of_decide_eq_true hValid, inImage_of_shown hShown⟩
  · rintro ⟨hDepth, hInside⟩
    refine List.mem_filter.mpr ⟨mem_flatnonzero.mpr (decide_eq_true hDepth), ?_⟩
    rw [project_of_depth hMin hDepth.1]
    exact decide_eq_true hInside

theorem mem_reads {uv : List (K × K)} {rc : ℤ × ℤ} (hRead : rc ∈ reads uv) : ∃ x ∈ uv, rc ∈ neighbours x := by
  simp only [reads, corners, List.flatMap_cons, List.flatMap_nil, List.map_map, List.zip_map', List.mem_append,
    List.mem_map, List.append_nil] at hRead
  rcases hRead with ⟨x, hx, rfl⟩ | ⟨x, hx, rfl⟩ | ⟨x, hx, rfl⟩ | ⟨x, hx, rfl⟩ <;>
    exact ⟨x, hx, by simp [neighbours]⟩

section Ordered

variable [IsStrictOrderedRing K]

theorem row_weight_pos {i : Fin n} :
    0 < (row job cam image pc i).weight ↔ i ∈ shown job cam image.height image.width pc := by
  rw [row]
  split
  · rename_i hShown
    exact ⟨fun _ => hShown, fun _ => depthWeight_pos _⟩
  · rename_i hHidden
    exact ⟨fun h => absurd h (lt_irrefl 0), fun h => absurd h hHidden⟩

theorem safeSampling_row (hMin : 0 ≤ job.minDepth) : SafeSampling job cam image pc (row job cam image pc) := by
  constructor
  · intro seen hSeen rc hRead
    rw [visible_eq] at hSeen
    cases hSeen
    obtain ⟨uv, hUv, hNeighbour⟩ := mem_reads hRead
    obtain ⟨i, hShown, rfl⟩ := List.mem_map.mp hUv
    exact neighbours_inRange (inImage_of_shown hShown) rc hNeighbour
  · exact fun i => project_of_depth hMin
  · exact fun i => row_weight_pos.trans (mem_shown_iff hMin)
  · intro i hWeight
    rw [row, if_neg (mt row_weight_pos.mpr hWeight)]
  · intro i hWeight
    have hShown := row_weight_pos.mp hWeight
    refine ⟨_, bilinearSample_eq_blended (inImage_of_shown hShown), fun k => ⟨blended_mem image _ k, ?_⟩⟩
    rw [row, if_pos hShown]
    exact toNat_astypeUint8 (blended_mem_byte image _ k)

end Ordered

end Image

end Masked

/-! ## All images -/

section Frames

variable [FloorRing K]

def frameList (frames : List (String × List (ℕ × Image))) : List (String × ℕ × Image) :=
  frames.flatMap fun topic => topic.2.map fun kf => (topic.1, kf)

/-- The rows of one frame, if its camera has a chain and its time a pose. -/
def rowsOf (job : Job K n) (frame : String × ℕ × Image) : Option (Option (Fin n → Sample K)) :=
  let cam := camFrameIdFromTopic frame.1
  match job.baseCamopt cam with
  | none => some none
  | some baseCamopt =>
    match job.interpPose (frame.2.1 + job.timeOffsetNs) with
    | none => some none
    | some mapBase => (Masked.projectAndSample job (mapBase * baseCamopt) (job.intrinsics cam) frame.2.2).map some

def Accumulator.extend (acc : Accumulator K n) : Option (Fin n → Sample K) → Accumulator K n
  | none => acc
  | some rows => acc.add rows

def addRows (job : Job K n) (acc : Accumulator K n) (frame : String × ℕ × Image) : Option (Accumulator K n) :=
  (rowsOf job frame).map acc.extend

variable {job : Job K n}

theorem addFrame_eq {topic : String} {baseCamopt : Transform K} (hBase : job.baseCamopt (camFrameIdFromTopic topic) = some baseCamopt)
    (acc : Accumulator K n) (kf : ℕ × Image) :
    addFrame job (camFrameIdFromTopic topic) baseCamopt acc kf = addRows job acc (topic, kf) := by
  simp only [addFrame, addRows, rowsOf, hBase, Masked.projectAndSample_eq]
  cases job.interpPose (kf.1 + job.timeOffsetNs) with
  | none => rfl
  | some mapBase =>
    rw [Option.map_map]
    rfl

theorem addTopic_eq (topic : String) (kfs : List (ℕ × Image)) (acc : Accumulator K n) :
    addTopic job acc (topic, kfs) = (kfs.map fun kf => (topic, kf)).foldlM (addRows job) acc := by
  rw [List.foldlM_map]
  cases hBase : job.baseCamopt (camFrameIdFromTopic topic) with
  | none =>
    have hSkip : ∀ kf, addRows job acc (topic, kf) = some acc := by
      intro kf
      simp [addRows, rowsOf, hBase, Accumulator.extend]
    simp only [addTopic, hBase]
    induction kfs with
    | nil => rfl
    | cons kf kfs ih => rw [List.foldlM_cons, hSkip, Option.bind_eq_bind, Option.bind_some, ← ih]
  | some baseCamopt =>
    simp only [addTopic, hBase]
    congr 1
    funext acc kf
    exact addFrame_eq hBase acc kf

theorem accumulate_eq (frames : List (String × List (ℕ × Image))) :
    accumulate job frames = (frameList frames).foldlM (addRows job) ⟨fun _ _ => 0, fun _ => 0⟩ := by
  rw [accumulate]
  generalize (⟨fun _ _ => 0, fun _ => 0⟩ : Accumulator K n) = acc
  induction frames generalizing acc with
  | nil => rfl
  | cons topic frames ih =>
    rw [List.foldlM_cons, frameList, List.flatMap_cons, List.foldlM_append, ← addTopic_eq]
    exact Option.bind_congr fun next _ => ih next

omit [LinearOrder K] [FloorRing K] in
theorem Accumulator.extend_comm (acc : Accumulator K n) (first second : Option (Fin n → Sample K)) :
    (acc.extend first).extend second = (acc.extend second).extend first := by
  cases first with
  | none => rfl
  | some rows =>
    cases second with
    | none => rfl
    | some rows' => simp only [extend, add, add_right_comm]

theorem addRows_comm (acc : Accumulator K n) (first second : String × ℕ × Image) :
    (addRows job acc first).bind (addRows job · second) = (addRows job acc second).bind (addRows job · first) := by
  rw [addRows, addRows]
  cases hFirst : rowsOf job first <;> cases hSecond : rowsOf job second <;>
    simp [addRows, hFirst, hSecond, Accumulator.extend_comm acc]

/-- The sums do not depend on the order of the frames, of one camera or of several. -/
theorem accumulate_perm {frames frames' : List (String × List (ℕ × Image))}
    (hPerm : (frameList frames).Perm (frameList frames')) : accumulate job frames = accumulate job frames' := by
  rw [accumulate_eq, accumulate_eq]
  exact Fallible.foldlM_perm addRows_comm hPerm _

def samplesIn (job : Job K n) (list : List (String × ℕ × Image)) (i : Fin n) : List (Sample K) :=
  list.filterMap fun frame =>
    (rowsOf job frame).join.bind fun rows => if 0 < (rows i).weight then some (rows i) else none

def samplesOf (job : Job K n) (frames : List (String × List (ℕ × Image))) (i : Fin n) : List (Sample K) :=
  samplesIn job (frameList frames) i

def weighted (k : Fin 3) (s : Sample K) : K × K := (s.weight, ((s.color k).toNat : K))

def Gathers (job : Job K n) (seen : List (String × ℕ × Image)) (acc : Accumulator K n) : Prop :=
  ∀ i k, acc.color i k = total ((samplesIn job seen i).map (weighted k)) ∧
    acc.weight i = weight ((samplesIn job seen i).map (weighted k))

section Sums

variable [IsStrictOrderedRing K]

theorem rowsOf_hidden {frame : String × ℕ × Image} {rows : Fin n → Sample K} (hRows : rowsOf job frame = some (some rows))
    {i : Fin n} (hWeight : ¬0 < (rows i).weight) : rows i = ⟨fun _ => 0, 0⟩ := by
  simp only [rowsOf] at hRows
  split at hRows
  · cases hRows
  · split at hRows
    · cases hRows
    · rename_i mapBase _
      obtain ⟨found, hFound, hSome⟩ := Option.map_eq_some_iff.mp hRows
      cases hSome
      obtain ⟨camoptMap, hInv, -⟩ := Option.bind_eq_some_iff.mp hFound
      rw [Masked.projectAndSample_eq_row job _ _ hInv] at hFound
      cases hFound
      rw [Masked.row, if_neg (mt Masked.row_weight_pos.mpr hWeight)]

theorem Gathers.extend {seen : List (String × ℕ × Image)} {acc : Accumulator K n} (hAcc : Gathers job seen acc)
    {frame : String × ℕ × Image} {found : Option (Fin n → Sample K)} (hRows : rowsOf job frame = some found) :
    Gathers job (seen ++ [frame]) (acc.extend found) := by
  intro i k
  obtain ⟨hColor, hWeight⟩ := hAcc i k
  simp only [samplesIn, List.filterMap_append, List.map_append, total_append, weight_append] at hColor hWeight ⊢
  rw [← hColor, ← hWeight]
  cases found with
  | none => simp [Accumulator.extend, hRows]
  | some rows =>
    by_cases hPos : 0 < (rows i).weight
    · simp [Accumulator.extend, Accumulator.add, hRows, hPos, weighted, mul_comm]
    · have hHidden := rowsOf_hidden hRows hPos
      simp [Accumulator.extend, Accumulator.add, hRows, hHidden]

theorem Gathers.run {list seen : List (String × ℕ × Image)} {acc acc' : Accumulator K n} (hAcc : Gathers job seen acc)
    (hRun : list.foldlM (addRows job) acc = some acc') : Gathers job (seen ++ list) acc' := by
  induction list generalizing seen acc with
  | nil =>
    cases hRun
    simpa using hAcc
  | cons frame list ih =>
    rw [List.foldlM_cons] at hRun
    obtain ⟨next, hNext, hRun⟩ := Option.bind_eq_some_iff.mp hRun
    obtain ⟨found, hRows, rfl⟩ := Option.map_eq_some_iff.mp hNext
    simpa using ih (hAcc.extend hRows) hRun

theorem accumulate_gathers {frames : List (String × List (ℕ × Image))} {acc : Accumulator K n}
    (hRun : accumulate job frames = some acc) : Gathers job (frameList frames) acc := by
  rw [accumulate_eq] at hRun
  have hStart : Gathers job [] (⟨fun _ _ => 0, fun _ => 0⟩ : Accumulator K n) := fun i k => ⟨rfl, rfl⟩
  exact hStart.run hRun

omit [IsStrictOrderedRing K] in
theorem samplesOf_weight_pos {frames : List (String × List (ℕ × Image))} {i : Fin n} {s : Sample K}
    (hs : s ∈ samplesOf job frames i) : 0 < s.weight := by
  obtain ⟨frame, -, hFrame⟩ := List.mem_filterMap.mp hs
  obtain ⟨rows, -, hRow⟩ := Option.bind_eq_some_iff.mp hFrame
  split at hRow
  · rename_i hPos
    cases hRow
    exact hPos
  · cases hRow

omit [IsStrictOrderedRing K] in
theorem weighted_pos {frames : List (String × List (ℕ × Image))} {i : Fin n} {k : Fin 3} :
    ∀ pair ∈ (samplesOf job frames i).map (weighted k), 0 < pair.1 := by
  intro pair hPair
  obtain ⟨s, hs, rfl⟩ := List.mem_map.mp hPair
  exact samplesOf_weight_pos hs

/-- The colour of a covered vertex lies between two of its own samples, so no byte wraps. -/
structure ConvexColor (job : Job K n) (frames : List (String × List (ℕ × Image))) (acc : Accumulator K n) (i : Fin n)
    (k : Fin 3) : Prop where
  average : acc.color i k / acc.weight i = mean ((samplesOf job frames i).map (weighted k))
  least : ∃ s ∈ samplesOf job frames i, ((s.color k).toNat : K) ≤ acc.color i k / acc.weight i ∧
    (s.color k).toNat ≤ (finalizeColors acc i k).toNat
  greatest : ∃ s ∈ samplesOf job frames i, acc.color i k / acc.weight i ≤ ((s.color k).toNat : K) ∧
    (finalizeColors acc i k).toNat ≤ (s.color k).toNat
  stored : ((finalizeColors acc i k).toNat : ℤ) = ⌊acc.color i k / acc.weight i⌋

theorem mean_samplesOf_mem {frames : List (String × List (ℕ × Image))} {i : Fin n} {k : Fin 3} {a b : K}
    (hCovered : samplesOf job frames i ≠ []) (hBounds : ∀ s ∈ samplesOf job frames i, ((s.color k).toNat : K) ∈ Set.Icc a b) :
    mean ((samplesOf job frames i).map (weighted k)) ∈ Set.Icc a b := by
  refine mean_mem weighted_pos (by simpa using hCovered) ?_
  intro pair hPair
  obtain ⟨s, hs, rfl⟩ := List.mem_map.mp hPair
  exact hBounds s hs

theorem finalizeColors_eq_floor {acc : Accumulator K n} {i : Fin n} {k : Fin 3} (hGood : 0 < acc.weight i)
    (hByte : acc.color i k / acc.weight i ∈ Set.Icc (0 : K) 255) :
    ((finalizeColors acc i k).toNat : ℤ) = ⌊acc.color i k / acc.weight i⌋ := by
  rw [finalizeColors, if_pos hGood, clip_of_mem hByte, toNat_astypeUint8 hByte]

theorem convexColor {frames : List (String × List (ℕ × Image))} {acc : Accumulator K n}
    (hRun : accumulate job frames = some acc) {i : Fin n} (hCovered : samplesOf job frames i ≠ []) (k : Fin 3) :
    ConvexColor job frames acc i k := by
  obtain ⟨hColor, hWeight⟩ : acc.color i k = total ((samplesOf job frames i).map (weighted k)) ∧
      acc.weight i = weight ((samplesOf job frames i).map (weighted k)) := accumulate_gathers hRun i k
  have hMean : acc.color i k / acc.weight i = mean ((samplesOf job frames i).map (weighted k)) := by
    rw [hColor, hWeight, mean]
  have hGood : 0 < acc.weight i := by
    rw [hWeight]
    exact weight_pos weighted_pos (by simpa using hCovered)
  have hByte : acc.color i k / acc.weight i ∈ Set.Icc (0 : K) 255 := by
    rw [hMean]
    refine mean_samplesOf_mem hCovered fun s _ => ⟨Nat.cast_nonneg _, ?_⟩
    exact_mod_cast Nat.le_of_lt_succ (s.color k).toNat_lt
  have hStored := finalizeColors_eq_floor hGood hByte
  obtain ⟨low, hLow⟩ := Option.ne_none_iff_exists'.mp (mt List.argmin_eq_none.mp hCovered :
    List.argmin (fun s : Sample K => (s.color k).toNat) (samplesOf job frames i) ≠ none)
  obtain ⟨high, hHigh⟩ := Option.ne_none_iff_exists'.mp (mt List.argmax_eq_none.mp hCovered :
    List.argmax (fun s : Sample K => (s.color k).toNat) (samplesOf job frames i) ≠ none)
  have hMem : acc.color i k / acc.weight i ∈ Set.Icc ((low.color k).toNat : K) ((high.color k).toNat : K) := by
    rw [hMean]
    refine mean_samplesOf_mem hCovered fun s hs => ⟨?_, ?_⟩
    · exact_mod_cast List.le_of_mem_argmin hs hLow
    · exact_mod_cast List.le_of_mem_argmax hs hHigh
  constructor
  · exact hMean
  · have hFloor : ((low.color k).toNat : ℤ) ≤ ⌊acc.color i k / acc.weight i⌋ :=
      Int.le_floor.mpr (by exact_mod_cast hMem.1)
    exact ⟨low, List.argmin_mem hLow, hMem.1, by omega⟩
  · have hFloor : ⌊acc.color i k / acc.weight i⌋ ≤ ((high.color k).toNat : ℤ) := by
      have hBelow : (⌊acc.color i k / acc.weight i⌋ : K) ≤ ((high.color k).toNat : K) := (Int.floor_le _).trans hMem.2
      exact_mod_cast hBelow
    exact ⟨high, List.argmax_mem hHigh, hMem.2, by omega⟩
  · exact hStored

/-- Every image is sampled safely, every covered vertex is coloured between its samples, and no order matters. -/
theorem sampling_safe_and_convex (job : Job K n) (hMin : 0 ≤ job.minDepth) :
    (∀ mapCamopt camoptMap cam image, linalgInv mapCamopt = some camoptMap →
      ∃ rows, Masked.projectAndSample job mapCamopt cam image = some rows ∧
        Masked.SafeSampling job cam image (fun i => transformPoint camoptMap (job.vertices i)) rows) ∧
    (∀ frames acc, accumulate job frames = some acc → ∀ i, samplesOf job frames i ≠ [] → ∀ k,
      ConvexColor job frames acc i k) ∧
    ∀ frames frames', (frameList frames).Perm (frameList frames') →
      accumulate job frames = accumulate job frames' ∧ colorMesh job frames = colorMesh job frames' := by
  refine ⟨?_, ?_, ?_⟩
  · intro mapCamopt camoptMap cam image hInv
    exact ⟨_, Masked.projectAndSample_eq_row job cam image hInv, Masked.safeSampling_row hMin⟩
  · intro frames acc hRun i hCovered k
    exact convexColor hRun hCovered k
  · intro frames frames' hPerm
    have hAcc : accumulate job frames = accumulate job frames' := accumulate_perm hPerm
    exact ⟨hAcc, by rw [colorMesh, colorMesh, hAcc]⟩

end Sums

end Frames

/-- The red scene, whose vertex is seen at depth one. -/
theorem sampling_safe_and_convex_red_scene :
    (∀ mapCamopt camoptMap cam image, linalgInv mapCamopt = some camoptMap →
      ∃ rows, Masked.projectAndSample redJob mapCamopt cam image = some rows ∧
        Masked.SafeSampling redJob cam image (fun i => transformPoint camoptMap (redJob.vertices i)) rows) ∧
    (∀ frames acc, accumulate redJob frames = some acc → ∀ i, samplesOf redJob frames i ≠ [] → ∀ k,
      ConvexColor redJob frames acc i k) ∧
    ∀ frames frames', (frameList frames).Perm (frameList frames') →
      accumulate redJob frames = accumulate redJob frames' ∧ colorMesh redJob frames = colorMesh redJob frames' :=
  sampling_safe_and_convex redJob (by norm_num [redJob])

end RoveMapping.ColorMesh
