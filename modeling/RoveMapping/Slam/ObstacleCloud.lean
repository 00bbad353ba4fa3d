import RoveMapping.Library.Binary32
import RoveMapping.Library.Binary64
import RoveMapping.Slam.PointClouds

/-! # The obstacle cloud

`publishObstacles` of the SLAM node writes the points of the local map that lie in the band of obstacles,
and `_pc2_to_xyz` of the live viewer reads them. The two share nothing but the layout of the fields.
-/
namespace RoveMapping.Slam
open Bytes Fallible
set_option autoImplicit false

/-- An `Eigen::Vector3d` of the local map. -/
structure MapPoint where
  x : Float
  y : Float
  z : Float

def MapPoint.Finite (p : MapPoint) : Prop := p.x.isFinite = true ∧ p.y.isFinite = true ∧ p.z.isFinite = true

/-- What `publishObstacles` reads of the node; the stamp is in nanoseconds. -/
structure ObstacleNode where
  mapFrame : String
  lastStamp : ℤ
  obstacleZMin : Float
  obstacleZMax : Float

structure ObstacleCloud extends PointCloud2 where
  frameId : String
  stamp : ℤ
  isDense : Bool
  isBigendian : Bool
  rowStep : UInt32

/-- `reinterpret_cast<const uint8_t*>(&x)` on a little-endian machine -/
def floatBytes (x : Float) : List UInt8 := le 4 (Binary32.ofDouble x).toBits.toNat

/-- `buf` and `kept` of the loop. -/
structure Written where
  buf : List UInt8
  kept : ℕ

section Model
variable (node : ObstacleNode)

def Skipped (p : MapPoint) : Prop := p.z < node.obstacleZMin ∨ node.obstacleZMax < p.z

instance (p : MapPoint) : Decidable (Skipped node p) := inferInstanceAs (Decidable (_ ∨ _))

def writePoint (written : Written) (p : MapPoint) : Written :=
  if Skipped node p then written
  else { buf := written.buf ++ floatBytes p.x ++ floatBytes p.y ++ floatBytes p.z, kept := written.kept + 1 }

/-- Three `FLOAT32`. -/
def obstacleFields : List PointField := [⟨"x", 0, 7⟩, ⟨"y", 4, 7⟩, ⟨"z", 8, 7⟩]

/-- The message, if one is published; `now` is what the node's clock says. `width` is an `uint32`, and so is
the product that becomes `row_step`. -/
def publishObstacles (now : ℤ) (pts : List MapPoint) : Option ObstacleCloud :=
  if pts.isEmpty then none
  else
    let written := pts.foldl (writePoint node) ⟨[], 0⟩
    let width := UInt32.ofNat written.kept
    let pointStep := 12
    some {
      frameId := node.mapFrame
      stamp := if 0 < node.lastStamp then node.lastStamp else now
      height := 1
      isDense := true
      isBigendian := false
      fields := obstacleFields
      pointStep
      width
      rowStep := width * pointStep
      data := written.buf }

/-! ## The loop -/

def keptPoints (pts : List MapPoint) : List MapPoint := pts.filter fun p => ¬Skipped node p

def pointBytes32 (p : MapPoint) : List UInt8 := floatBytes p.x ++ floatBytes p.y ++ floatBytes p.z

theorem foldl_writePoint (pts : List MapPoint) (written : Written) :
    pts.foldl (writePoint node) written =
      ⟨written.buf ++ ((keptPoints node pts).map pointBytes32).flatten, written.kept + (keptPoints node pts).length⟩ := by
  induction pts generalizing written with
  | nil => simp [keptPoints]
  | cons p pts ih =>
    rw [List.foldl_cons, ih]
    by_cases hSkipped : Skipped node p
    · have hKept : keptPoints node (p :: pts) = keptPoints node pts := by simp [keptPoints, hSkipped]
      rw [writePoint, if_pos hSkipped, hKept]
    · have hKept : keptPoints node (p :: pts) = p :: keptPoints node pts := by simp [keptPoints, hSkipped]
      rw [writePoint, if_neg hSkipped, hKept]
      simp only [List.map_cons, List.flatten_cons, List.length_cons, pointBytes32, List.append_assoc]
      congr 1
      omega

end Model

theorem length_pointBytes32 (p : MapPoint) : (pointBytes32 p).length = 12 := by
  simp [pointBytes32, floatBytes]

/-- Where the bounds are numbers, what is not skipped are the points of the band. -/
theorem not_skipped_iff {node : ObstacleNode} (hMin : node.obstacleZMin.isNaN = false)
    (hMax : node.obstacleZMax.isNaN = false) {p : MapPoint} (hFinite : p.Finite) :
    ¬Skipped node p ↔ node.obstacleZMin ≤ p.z ∧ p.z ≤ node.obstacleZMax := by
  have hNumber := Binary64.isNaN_of_isFinite hFinite.2.2
  constructor
  · intro hSkipped
    have hBelow := mt Or.inl hSkipped
    have hAbove := mt Or.inr hSkipped
    exact ⟨Binary64.le_of_not_lt hNumber hMin hBelow, Binary64.le_of_not_lt hMax hNumber hAbove⟩
  · rintro ⟨hLow, hHigh⟩ (hBelow | hAbove)
    · exact Binary64.not_lt_of_le hLow hBelow
    · exact Binary64.not_lt_of_le hHigh hAbove

/-! ## Reading it back -/

/-- A point as a `float32` array has it. -/
def MapPoint.narrowed (p : MapPoint) : Xyz :=
  ⟨.bits (Binary32.ofDouble p.x).toBits, .bits (Binary32.ofDouble p.y).toBits, .bits (Binary32.ofDouble p.z).toBits⟩

theorem word_floatBytes (x : Float) : word (floatBytes x) = (Binary32.ofDouble x).toBits := by
  have hFits : (Binary32.ofDouble x).toBits.toNat < 256 ^ 4 := UInt32.toNat_lt _
  rw [word, floatBytes, readLE_le hFits, UInt32.ofNat_toNat]

theorem coordinate_ofDouble {x : Float} (h : x.isFinite = true) :
    coordinate (Binary32.ofDouble x).toBits = .bits (Binary32.ofDouble x).toBits := by
  have hMagnitude := Binary32.magnitude_ofDouble (Binary64.isNaN_of_isFinite h)
  exact if_neg (UInt32.not_lt.mpr hMagnitude)

theorem rowXyz_pointBytes32 {p : MapPoint} (h : p.Finite) : rowXyz 0 4 8 (pointBytes32 p) = p.narrowed := by
  have hX : slice 0 4 (pointBytes32 p) = floatBytes p.x := by simp [slice, pointBytes32, floatBytes]
  have hY : slice 4 4 (pointBytes32 p) = floatBytes p.y := by simp [slice, pointBytes32, floatBytes]
  have hZ : slice 8 4 (pointBytes32 p) = floatBytes p.z := by
    have hBefore : (floatBytes p.x ++ floatBytes p.y).length = 8 := by simp [floatBytes]
    rw [slice, pointBytes32, List.drop_left' hBefore]
    simp [floatBytes]
  rw [rowXyz, hX, hY, hZ, word_floatBytes, word_floatBytes, word_floatBytes, coordinate_ofDouble h.1,
    coordinate_ofDouble h.2.1, coordinate_ofDouble h.2.2, MapPoint.narrowed]

/-- The message carries the points, and its sizes are those of its data. -/
structure RoundTrip (points : List MapPoint) (msg : ObstacleCloud) : Prop where
  decoded : pc2ToXyz msg.toPointCloud2 = some (points.map MapPoint.narrowed)
  fallback : fallback msg.toPointCloud2 0 4 8 = some (points.map MapPoint.narrowed)
  width : msg.width.toNat = points.length
  row_step : msg.rowStep.toNat = msg.width.toNat * msg.pointStep.toNat
  data_length : msg.data.length = msg.rowStep.toNat * msg.height.toNat

section Message
variable {node : ObstacleNode} {now : ℤ} {pts : List MapPoint} {msg : ObstacleCloud}

theorem publishObstacles_eq_none : publishObstacles node now pts = none ↔ pts = [] := by
  unfold publishObstacles
  cases pts <;> simp

variable (h : publishObstacles node now pts = some msg)
include h

theorem publishObstacles_spec :
    msg.toPointCloud2 = { height := 1, width := UInt32.ofNat (keptPoints node pts).length
                          fields := obstacleFields, pointStep := 12
                          data := ((keptPoints node pts).map pointBytes32).flatten } ∧
      msg.rowStep = msg.width * 12 := by
  unfold publishObstacles at h
  split at h
  · cases h
  · rw [foldl_writePoint] at h
    obtain rfl := Option.some.inj h
    simp

omit h in
theorem length_of_mem_parts {points : List MapPoint} : ∀ part ∈ points.map pointBytes32, part.length = 12 := by
  intro part hPart
  obtain ⟨p, -, rfl⟩ := List.mem_map.mp hPart
  exact length_pointBytes32 p

theorem length_data : msg.data.length = (keptPoints node pts).length * 12 := by
  rw [(publishObstacles_spec h).1, length_flatten_of_rows _ length_of_mem_parts, List.length_map]

theorem width_eq : msg.width.toNat = (keptPoints node pts).length % 2 ^ 32 := by
  rw [(publishObstacles_spec h).1, UInt32.toNat_ofNat']

theorem count_eq : msg.count = msg.width.toNat := by
  rw [PointCloud2.count, (publishObstacles_spec h).1]
  exact Nat.mul_one _

theorem step_eq : msg.step = 12 := by
  rw [PointCloud2.step, (publishObstacles_spec h).1]
  rfl

theorem row_step_eq : msg.rowStep.toNat = msg.width.toNat * 12 % 2 ^ 32 := by
  rw [(publishObstacles_spec h).2, UInt32.toNat_mul]
  rfl

/-- With fewer than 2³² points the rows of the data are the points. -/
theorem decoded_eq (hFinite : ∀ p ∈ pts, p.Finite) (hKept : (keptPoints node pts).length < 2 ^ 32) :
    decoded msg.toPointCloud2 0 4 8 = (keptPoints node pts).map MapPoint.narrowed := by
  have hCount : msg.count = ((keptPoints node pts).map pointBytes32).length := by
    rw [count_eq h, width_eq h, Nat.mod_eq_of_lt hKept, List.length_map]
  have hData : msg.data = ((keptPoints node pts).map pointBytes32).flatten := by
    rw [(publishObstacles_spec h).1]
  rw [decoded, step_eq h, hCount, hData, rows_flatten _ length_of_mem_parts, List.map_map]
  apply List.map_congr_left
  intro p hKept
  exact rowXyz_pointBytes32 (hFinite p (List.mem_of_mem_filter hKept))

omit h in
theorem lastField_obstacleFields : lastField ["x"] obstacleFields = some ⟨"x", 0, 7⟩ ∧
    lastField ["y"] obstacleFields = some ⟨"y", 4, 7⟩ ∧ lastField ["z"] obstacleFields = some ⟨"z", 8, 7⟩ := by
  decide +kernel

theorem fields_eq : msg.fields = obstacleFields := by
  rw [(publishObstacles_spec h).1]

theorem framed_obstacles (hKept : (keptPoints node pts).length < 2 ^ 32) : Framed msg.toPointCloud2 where
  data_length := by
    rw [length_data h, count_eq h, width_eq h, step_eq h, Nat.mod_eq_of_lt hKept]
  inside := by
    rw [step_eq h, fields_eq h]
    decide +kernel

theorem read_obstacles (hFinite : ∀ p ∈ pts, p.Finite) (hKept : (keptPoints node pts).length < 2 ^ 32) :
    pc2ToXyz msg.toPointCloud2 = some ((keptPoints node pts).map MapPoint.narrowed) ∧
      fallback msg.toPointCloud2 0 4 8 = some ((keptPoints node pts).map MapPoint.narrowed) := by
  have hFramed := framed_obstacles h hKept
  have hStep := step_eq h
  obtain ⟨hX, hY, hZ⟩ := lastField_obstacleFields
  rw [← fields_eq h] at hX hY hZ
  rw [← decoded_eq h hFinite hKept]
  constructor
  · by_cases hCount : msg.count = 0
    · rw [(empty_of_count hCount).1, decoded, hCount, rows, List.map_nil]
    · have hZero : (0 : UInt32).toNat = 0 := rfl
      have hFour : (4 : UInt32).toNat = 4 := rfl
      have hEight : (8 : UInt32).toNat = 8 := rfl
      have hRead := pc2ToXyz_complete hX hY hZ hFramed hCount
      rw [hRead]
      simp only [hZero, hFour, hEight]
  · exact fallback_eq hFramed.data_length (by omega) (by omega) (by omega)

theorem roundTrip_iff (hFinite : ∀ p ∈ pts, p.Finite) :
    RoundTrip (keptPoints node pts) msg ↔ (keptPoints node pts).length * 12 < 2 ^ 32 := by
  have hData := length_data h
  have hWidth := width_eq h
  have hRow := row_step_eq h
  have hStep : msg.pointStep.toNat = 12 := step_eq h
  have hHeight : msg.height.toNat = 1 := by
    rw [(publishObstacles_spec h).1]
    rfl
  constructor
  · intro hTrip
    have hLength := hTrip.data_length
    have hRowLt := msg.rowStep.toNat_lt
    rw [hHeight] at hLength
    omega
  · intro hKept
    obtain ⟨hDecoded, hFallback⟩ := read_obstacles h hFinite (by omega)
    rw [Nat.mod_eq_of_lt (by omega)] at hWidth
    rw [Nat.mod_eq_of_lt (by omega)] at hRow
    constructor
    · exact hDecoded
    · exact hFallback
    · exact hWidth
    · rw [hStep, hRow]
    · rw [hHeight]
      omega

end Message

/-- Below 2³² points nothing is lost or changed on the way. The sizes in the message are right exactly as long
as the data is shorter than 2³² bytes, which is what the `uint32` of `row_step` can say. -/
theorem obstacles_round_trip (node : ObstacleNode) (now : ℤ) {pts : List MapPoint} (hFinite : ∀ p ∈ pts, p.Finite) :
    (publishObstacles node now pts = none ↔ pts = []) ∧
    (node.obstacleZMin.isNaN = false → node.obstacleZMax.isNaN = false →
      keptPoints node pts = pts.filter fun p => node.obstacleZMin ≤ p.z ∧ p.z ≤ node.obstacleZMax) ∧
    ∀ msg, publishObstacles node now pts = some msg →
      (RoundTrip (keptPoints node pts) msg ↔ (keptPoints node pts).length * 12 < 2 ^ 32) ∧
      ((keptPoints node pts).length < 2 ^ 32 →
        pc2ToXyz msg.toPointCloud2 = some ((keptPoints node pts).map MapPoint.narrowed) ∧
        fallback msg.toPointCloud2 0 4 8 = some ((keptPoints node pts).map MapPoint.narrowed)) := by
  refine ⟨publishObstacles_eq_none, ?_, ?_⟩
  · intro hMin hMax
    apply List.filter_congr
    intro p hPoint
    exact decide_eq_decide.mpr (not_skipped_iff hMin hMax (hFinite p hPoint))
  · intro msg h
    exact ⟨roundTrip_iff h hFinite, read_obstacles h hFinite⟩

/-- The band from −1 to 1. -/
def flatNode : ObstacleNode where
  mapFrame := "map"
  lastStamp := 0
  obstacleZMin := -1
  obstacleZMax := 1

/-- A point in the band that `float32` rounds, one above the band and one at its lower end. -/
theorem obstacles_round_trip_band :
    ∃ msg, publishObstacles flatNode 0 [⟨0.1, 2, 0.5⟩, ⟨1, 1, 1.5⟩, ⟨-4, 1e-3, -1⟩] = some msg ∧
      RoundTrip [⟨0.1, 2, 0.5⟩, ⟨-4, 1e-3, -1⟩] msg ∧
      pc2ToXyz msg.toPointCloud2 = some [⟨.bits 0x3dcccccd, .bits 0x40000000, .bits 0x3f000000⟩,
        ⟨.bits 0xc0800000, .bits 0x3a83126f, .bits 0xbf800000⟩] := by
  have hFinite : ∀ p ∈ [(⟨0.1, 2, 0.5⟩ : MapPoint), ⟨1, 1, 1.5⟩, ⟨-4, 1e-3, -1⟩], p.Finite := by
    simp only [List.forall_mem_cons, List.not_mem_nil, false_implies, implies_true, and_true, MapPoint.Finite]
    decide +kernel
  have hKept : keptPoints flatNode [⟨0.1, 2, 0.5⟩, ⟨1, 1, 1.5⟩, ⟨-4, 1e-3, -1⟩] = [⟨0.1, 2, 0.5⟩, ⟨-4, 1e-3, -1⟩] := by
    have hFirst : ¬Skipped flatNode ⟨0.1, 2, 0.5⟩ := by decide +kernel
    have hAbove : Skipped flatNode ⟨1, 1, 1.5⟩ := by decide +kernel
    have hLast : ¬Skipped flatNode ⟨-4, 1e-3, -1⟩ := by decide +kernel
    simp [keptPoints, hFirst, hAbove, hLast]
  obtain ⟨hNone, -, hSome⟩ := obstacles_round_trip flatNode 0 hFinite
  cases h : publishObstacles flatNode 0 [⟨0.1, 2, 0.5⟩, ⟨1, 1, 1.5⟩, ⟨-4, 1e-3, -1⟩] with
  | none => exact absurd (hNone.mp h) (by simp)
  | some msg =>
    have hTrip := (hSome msg h).1
    rw [hKept] at hTrip
    have hRead := hTrip.mpr (by decide)
    refine ⟨msg, rfl, hRead, hRead.decoded.trans ?_⟩
    decide +kernel

def origin : MapPoint := ⟨0, 0, 0⟩

theorem finite_origins (count : ℕ) : ∀ p ∈ List.replicate count origin, p.Finite := by
  intro p hPoint
  have hOrigin : origin.Finite := ⟨by decide +kernel, by decide +kernel, by decide +kernel⟩
  rw [List.eq_of_mem_replicate hPoint]
  exact hOrigin

theorem keptPoints_origins (count : ℕ) :
    keptPoints flatNode (List.replicate count origin) = List.replicate count origin := by
  have hOrigin : ¬Skipped flatNode origin := by decide +kernel
  rw [keptPoints, List.filter_replicate_of_pos (by simpa using hOrigin)]

/-- With 357913942 points the data has 2³² + 8 bytes, and `row_step` is 8. -/
theorem row_step_wraps : ∃ msg, publishObstacles flatNode 0 (List.replicate 357913942 origin) = some msg ∧
    (∀ p ∈ List.replicate 357913942 origin, p.Finite) ∧
    msg.width.toNat = 357913942 ∧ msg.rowStep.toNat = 8 ∧ msg.data.length = 2 ^ 32 + 8 ∧
    ¬RoundTrip (keptPoints flatNode (List.replicate 357913942 origin)) msg := by
  have hFinite := finite_origins 357913942
  have hKept := keptPoints_origins 357913942
  have hLength := List.length_replicate (n := 357913942) (a := origin)
  generalize List.replicate 357913942 origin = pts at hFinite hKept hLength
  cases h : publishObstacles flatNode 0 pts with
  | none =>
    rw [publishObstacles_eq_none.mp h] at hLength
    cases hLength
  | some msg =>
    have hData := length_data h
    have hWidth := width_eq h
    have hRow := row_step_eq h
    have hTrip := roundTrip_iff h hFinite
    rw [hKept] at hTrip ⊢
    rw [hKept, hLength] at hData hWidth
    rw [hLength] at hTrip
    refine ⟨msg, rfl, hFinite, by omega, by omega, by omega, ?_⟩
    rw [hTrip]
    omega

end RoveMapping.Slam
