import RoveMapping.Library.Binary32
import RoveMapping.Library.Binary64Values
import RoveMapping.Slam.PointClouds

/-! # Times of the points of a lidar frame

`pc2ToLidarFrame` of the SLAM node with the per-point times: each is taken as a difference from the time of
the point that comes first, and converted to `uint32_t`.
-/
namespace RoveMapping.Slam
open Bytes Fallible Binary64
set_option autoImplicit false

/-- A `sensor_msgs/PointCloud2` with its header. -/
structure StampedCloud extends PointCloud2 where
  sec : Int32
  nanosec : UInt32
  frameId : String

structure TimedPoint where
  point : Point
  offsetNs : UInt32
deriving DecidableEq

structure LidarFrame where
  timestampNs : UInt64
  frameId : String
  hasPerPointTime : Bool
  points : List TimedPoint

/-- `off_t` and `dt_t`, where `off_t` is not negative. -/
def timeField (msg : PointCloud2) : Option PointField :=
  match lastField timeNames msg.fields with
  | some ft => if 0 ≤ offsetInt (some ft) then some ft else none
  | none => none

/-- The `double t` of a point: what is no `FLOAT64`, `FLOAT32` or `UINT32` leaves it zero. -/
def stampOf (datatype : UInt8) (bytes : List UInt8) : Float :=
  if datatype = 8 then .ofBits (UInt64.ofNat (readLE bytes))
  else if datatype = 7 then Binary32.toDouble (.ofBits (word bytes))
  else if datatype = 6 then (word bytes).toFloat
  else 0

/-- `static_cast<uint32_t>(d)`; undefined where the integer part of `d` is no `uint32_t`. -/
def toUint32? (d : Float) : Option UInt32 := if -1 < d ∧ d < 4294967296 then some d.toUInt32 else none

/-- `t_first` and `t_max`. -/
structure Times where
  first : Float
  max : Float

def readTime (i : ℕ) (times : Times) (t : Float) : Option (Times × UInt32) := do
  let first := if i = 0 then t else times.first
  let max := if times.max < t - first then t - first else times.max
  let offsetNs ← toUint32? (t - first)
  return (⟨first, max⟩, offsetNs)

/-- The body of the loop over the points. -/
def pushPoint (msg : PointCloud2) (state : Times × List TimedPoint) (i : ℕ) : Option (Times × List TimedPoint) := do
  let point ← lidarPoint msg i
  match timeField msg with
  | some ft =>
    let bytes ← copyTime msg (i * msg.step)
    let (times, offsetNs) ← readTime i state.1 (stampOf ft.datatype bytes)
    return (times, state.2 ++ [⟨point, offsetNs⟩])
  | none => return (state.1, state.2 ++ [⟨point, 0⟩])

def CoordinateMissing (msg : PointCloud2) : Prop :=
  offsetInt (lastField ["x"] msg.fields) < 0 ∨ offsetInt (lastField ["y"] msg.fields) < 0 ∨
    offsetInt (lastField ["z"] msg.fields) < 0

instance (msg : PointCloud2) : Decidable (CoordinateMissing msg) := inferInstanceAs (Decidable (_ ∨ _))

/-- `pc2ToLidarFrame`; `none` is undefined behaviour. A new `LidarFrame`, whose class is not in the repository,
has `initial` for `has_per_point_time`. -/
def lidarFrame (initial : Bool) (msg : StampedCloud) : Option LidarFrame :=
  let timestampNs := UInt64.ofInt msg.sec.toInt * 1000000000 + msg.nanosec.toUInt64
  if CoordinateMissing msg.toPointCloud2 then
    some { timestampNs, frameId := msg.frameId, hasPerPointTime := initial, points := [] }
  else do
    let timed := (timeField msg.toPointCloud2).isSome
    let (times, points) ← (List.range msg.count).foldlM (pushPoint msg.toPointCloud2) (⟨0, 0⟩, [])
    if timed ∧ 0 < times.max ∧ times.max < 1 then
      some { timestampNs, frameId := msg.frameId, hasPerPointTime := false
             points := points.map fun pt => { pt with offsetNs := 0 } }
    else some { timestampNs, frameId := msg.frameId, hasPerPointTime := timed, points }

/-! ## Stamps -/

def stampAt (msg : PointCloud2) (ft : PointField) (i : ℕ) : Float :=
  stampOf ft.datatype ((copyTime msg (i * msg.step)).getD [])

/-- The values of `t` in the order of the points. -/
def stamps (msg : PointCloud2) : List Float :=
  match timeField msg with
  | some ft => if CoordinateMissing msg then [] else (List.range msg.count).map (stampAt msg ft)
  | none => []

def firstStamp (msg : PointCloud2) : Float := (stamps msg).headD 0

/-- The values of `t - t_first`. -/
def differences (msg : PointCloud2) : List Float := (stamps msg).map fun t => t - firstStamp msg

/-- Stamps in nanoseconds as `FLOAT64` or `UINT32`, less than 2³² of them apart. -/
structure Nanoseconds (msg : PointCloud2) : Prop where
  field : ∃ ft, timeField msg = some ft ∧ (ft.datatype = 8 ∨ ft.datatype = 6)
  finite : ∀ t ∈ stamps msg, t.isFinite = true
  span : ∀ s ∈ stamps msg, ∀ t ∈ stamps msg, toRat t - toRat s < 2 ^ 32

/-- What is converted is in the range of an `uint32_t`, and the points keep the order of their stamps. -/
structure KeepsTime (initial : Bool) (msg : StampedCloud) : Prop where
  in_range : ∀ d ∈ differences msg.toPointCloud2, 0 ≤ d ∧ d < 4294967296
  ordered : ∃ frame, lidarFrame initial msg = some frame ∧ ∀ (i j : ℕ) (s t : Float) (p q : TimedPoint),
    (stamps msg.toPointCloud2)[i]? = some s → (stamps msg.toPointCloud2)[j]? = some t →
    frame.points[i]? = some p → frame.points[j]? = some q → s ≤ t → p.offsetNs ≤ q.offsetNs

/-! ## One difference -/

section Difference
variable {t first : Float} (ht : t.isFinite = true) (hFirst : first.isFinite = true)
  (hSpan : |toRat t - toRat first| < 2 ^ 32)
include ht hFirst hSpan

theorem sub_stamps : (t - first).isFinite = true ∧ toRat (t - first) = difference t first := by
  have hBound := abs_rounded_le (k := 32) (by norm_num) (show |toRat t - toRat first| ≤ 2 ^ (32 : ℤ) from hSpan.le)
  have hTop : (2 : ℚ) ^ (32 : ℤ) < 2 ^ (1024 : ℤ) := zpow_lt_zpow_right₀ (by norm_num) (by decide)
  exact sub_spec ht hFirst (hBound.trans_lt hTop)

/-- The conversion of the difference is sound exactly where the stamp is not before the first one, and does not
round up to 2³². -/
theorem in_range_iff : (0 ≤ t - first ∧ t - first < 4294967296) ↔
    toRat first ≤ toRat t ∧ toRat t - toRat first < 2 ^ 32 - 2 ^ (-22 : ℤ) := by
  obtain ⟨hFinite, hValue⟩ := sub_stamps ht hFirst hSpan
  have hZero : toRat 0 = 0 := by decide +kernel
  have hTop : toRat 4294967296 = 2 ^ (32 : ℤ) := by decide +kernel
  rw [le_iff_toRat (by decide +kernel) hFinite, lt_iff_toRat hFinite (by decide +kernel), hZero, hTop, hValue,
    difference_nonneg_iff]
  constructor
  · rintro ⟨hOrder, hBelow⟩
    exact ⟨hOrder, (difference_lt_zpow_iff (by norm_num) hOrder).mp hBelow⟩
  · rintro ⟨hOrder, hBelow⟩
    exact ⟨hOrder, (difference_lt_zpow_iff (by norm_num) hOrder).mpr hBelow⟩

theorem toUint32_of_in_range (h : 0 ≤ t - first ∧ t - first < 4294967296) :
    toUint32? (t - first) = some (t - first).toUInt32 ∧ ((t - first).toUInt32.toNat : ℤ) = ⌊difference t first⌋ := by
  obtain ⟨hFinite, hValue⟩ := sub_stamps ht hFirst hSpan
  have hZero : toRat 0 = 0 := by decide +kernel
  have hMinus : toRat (-1) = -1 := by decide +kernel
  have hTop : toRat 4294967296 = 2 ^ 32 := by decide +kernel
  obtain ⟨hNonneg, hBelow⟩ := h
  have hAbove : -1 < t - first := by
    rw [le_iff_toRat (by decide +kernel) hFinite, hZero] at hNonneg
    rw [lt_iff_toRat (by decide +kernel) hFinite, hMinus]
    linarith
  refine ⟨if_pos ⟨hAbove, hBelow⟩, ?_⟩
  rw [le_iff_toRat (by decide +kernel) hFinite, hZero] at hNonneg
  rw [lt_iff_toRat hFinite (by decide +kernel), hTop] at hBelow
  rw [toNat_toUInt32 hFinite hNonneg hBelow, hValue]

end Difference

/-! ## The loop -/

section Loop
variable {msg : PointCloud2}

/-- The points are those without the times. -/
theorem points_of_foldlM {n : ℕ} {state : Times × List TimedPoint}
    (h : (List.range n).foldlM (pushPoint msg) (⟨0, 0⟩, []) = some state) :
    (List.range n).mapM (lidarPoint msg) = some (state.2.map TimedPoint.point) := by
  induction n generalizing state with
  | zero =>
    cases h
    rfl
  | succ n ih =>
    rw [foldlM_range_succ] at h
    obtain ⟨before, hBefore, h⟩ := Option.bind_eq_some_iff.mp h
    rw [pushPoint] at h
    obtain ⟨point, hPoint, h⟩ := Option.bind_eq_some_iff.mp h
    have hState : state.2.map TimedPoint.point = before.2.map TimedPoint.point ++ [point] := by
      split at h
      · obtain ⟨bytes, -, h⟩ := Option.bind_eq_some_iff.mp h
        obtain ⟨⟨times, offsetNs⟩, -, h⟩ := Option.bind_eq_some_iff.mp h
        obtain rfl := Option.some.inj h
        simp
      · obtain rfl := Option.some.inj h
        simp
    rw [List.range_succ, List.mapM_append, ih hBefore, List.mapM_cons, List.mapM_nil, hPoint, hState]
    rfl

def offsetAt (msg : PointCloud2) (ft : PointField) (i : ℕ) : UInt32 :=
  (stampAt msg ft i - stampAt msg ft 0).toUInt32

theorem copyTime_of_lidarPoint {i : ℕ} (h : (lidarPoint msg i).isSome) :
    ∃ bytes, copyTime msg (i * msg.step) = some bytes := by
  obtain ⟨point, hPoint⟩ := Option.isSome_iff_exists.mp h
  unfold lidarPoint at hPoint
  obtain ⟨x, -, hPoint⟩ := Option.bind_eq_some_iff.mp hPoint
  obtain ⟨y, -, hPoint⟩ := Option.bind_eq_some_iff.mp hPoint
  obtain ⟨z, -, hPoint⟩ := Option.bind_eq_some_iff.mp hPoint
  obtain ⟨intensity, -, hPoint⟩ := Option.bind_eq_some_iff.mp hPoint
  obtain ⟨bytes, hBytes, -⟩ := Option.bind_eq_some_iff.mp hPoint
  exact ⟨bytes, hBytes⟩

variable {ft : PointField}

theorem pushPoint_eq (hField : timeField msg = some ft) {i : ℕ} (hPoint : (lidarPoint msg i).isSome)
    {state : Times × List TimedPoint} (hFirst : i ≠ 0 → state.1.first = stampAt msg ft 0)
    (hRange : toUint32? (stampAt msg ft i - stampAt msg ft 0) = some (offsetAt msg ft i)) :
    ∃ max point, pushPoint msg state i = some (⟨stampAt msg ft 0, max⟩, state.2 ++ [⟨point, offsetAt msg ft i⟩]) := by
  obtain ⟨bytes, hBytes⟩ := copyTime_of_lidarPoint hPoint
  obtain ⟨point, hPoint⟩ := Option.isSome_iff_exists.mp hPoint
  have hStamp : stampOf ft.datatype bytes = stampAt msg ft i := by rw [stampAt, hBytes, Option.getD_some]
  have hReference : (if i = 0 then stampAt msg ft i else state.1.first) = stampAt msg ft 0 := by
    split
    · rename_i hZero
      rw [hZero]
    · rename_i hLater
      exact hFirst hLater
  unfold pushPoint readTime
  simp only [hPoint, hField, hBytes, hStamp, hReference, hRange, Option.bind_eq_bind, Option.bind_some]
  exact ⟨_, point, rfl⟩

theorem foldlM_pushPoint (hField : timeField msg = some ft) {n : ℕ} (hPoints : ∀ i < n, (lidarPoint msg i).isSome)
    (hRange : ∀ i < n, toUint32? (stampAt msg ft i - stampAt msg ft 0) = some (offsetAt msg ft i)) :
    ∃ state, (List.range n).foldlM (pushPoint msg) (⟨0, 0⟩, []) = some state ∧
      (n ≠ 0 → state.1.first = stampAt msg ft 0) ∧ state.2.map TimedPoint.offsetNs = (List.range n).map (offsetAt msg ft) := by
  induction n with
  | zero => exact ⟨_, rfl, fun h => absurd rfl h, rfl⟩
  | succ n ih =>
    obtain ⟨state, hState, hFirst, hOffsets⟩ := ih (fun i hi => hPoints i (by omega)) (fun i hi => hRange i (by omega))
    obtain ⟨max, point, hPush⟩ := pushPoint_eq hField (hPoints n (by omega)) hFirst (hRange n (by omega))
    refine ⟨(⟨stampAt msg ft 0, max⟩, state.2 ++ [⟨point, offsetAt msg ft n⟩]), ?_, fun _ => rfl, ?_⟩
    · rw [foldlM_range_succ, hState, Option.bind_some, hPush]
    · rw [List.map_append, hOffsets, List.range_succ, List.map_append]
      rfl

end Loop

/-! ## The whole frame -/

section Frame
variable {msg : PointCloud2}

theorem lidarPoint_isSome (hReads : (pc2ToLidarFrame msg).isSome) (hCoordinates : ¬CoordinateMissing msg) :
    ∀ i < msg.count, (lidarPoint msg i).isSome := by
  intro i hi
  unfold CoordinateMissing at hCoordinates
  rw [pc2ToLidarFrame, if_neg hCoordinates] at hReads
  obtain ⟨points, hPoints⟩ := Option.isSome_iff_exists.mp hReads
  obtain ⟨point, hPoint⟩ := exists_of_mapM hPoints (List.mem_range.mpr hi)
  exact Option.isSome_iff_exists.mpr ⟨point, hPoint⟩

theorem stamps_eq {ft : PointField} (hField : timeField msg = some ft) (hCoordinates : ¬CoordinateMissing msg) :
    stamps msg = (List.range msg.count).map (stampAt msg ft) := by
  unfold stamps
  rw [hField]
  exact if_neg hCoordinates

theorem firstStamp_eq {ft : PointField} (h : stamps msg = (List.range msg.count).map (stampAt msg ft)) (hCount : 0 < msg.count) :
    firstStamp msg = stampAt msg ft 0 := by
  obtain ⟨n, hn⟩ := Nat.exists_eq_succ_of_ne_zero hCount.ne'
  rw [firstStamp, h, hn, Nat.succ_eq_add_one, List.range_succ_eq_map]
  rfl

/-- The first stamp is one of the stamps, where there are any. -/
theorem firstStamp_mem {t : Float} (ht : t ∈ stamps msg) : firstStamp msg ∈ stamps msg := by
  unfold firstStamp
  cases hStamps : stamps msg with
  | nil =>
    rw [hStamps] at ht
    cases ht
  | cons first rest => exact List.mem_cons_self

theorem Nanoseconds.near (h : Nanoseconds msg) {t : Float} (ht : t ∈ stamps msg) :
    |toRat t - toRat (firstStamp msg)| < 2 ^ 32 := by
  have hAfter := h.span _ (firstStamp_mem ht) t ht
  have hBefore := h.span t ht _ (firstStamp_mem ht)
  rw [abs_lt]
  constructor <;> linarith

/-- No stamp is before the first one, and none is so late that its difference rounds up to 2³². -/
def FirstLeast (msg : PointCloud2) : Prop :=
  ∀ t ∈ stamps msg, toRat (firstStamp msg) ≤ toRat t ∧ toRat t - toRat (firstStamp msg) < 2 ^ 32 - 2 ^ (-22 : ℤ)

theorem differences_in_range_iff (h : Nanoseconds msg) :
    (∀ d ∈ differences msg, 0 ≤ d ∧ d < 4294967296) ↔ FirstLeast msg := by
  unfold differences FirstLeast
  rw [List.forall_mem_map]
  apply forall₂_congr
  intro t ht
  exact in_range_iff (h.finite t ht) (h.finite _ (firstStamp_mem ht)) (h.near ht)

section InRange
variable (h : Nanoseconds msg) {ft : PointField} (hStamps : stamps msg = (List.range msg.count).map (stampAt msg ft))
  (hRange : ∀ d ∈ differences msg, 0 ≤ d ∧ d < 4294967296)
include hStamps

theorem stampAt_mem {i : ℕ} (hi : i < msg.count) : stampAt msg ft i ∈ stamps msg := by
  rw [hStamps]
  exact List.mem_map_of_mem (List.mem_range.mpr hi)

include h hRange

theorem offsetAt_spec {i : ℕ} (hi : i < msg.count) :
    toUint32? (stampAt msg ft i - stampAt msg ft 0) = some (offsetAt msg ft i) ∧
      ((offsetAt msg ft i).toNat : ℤ) = ⌊difference (stampAt msg ft i) (stampAt msg ft 0)⌋ := by
  have hFirst := firstStamp_eq hStamps (by omega)
  have hMem := stampAt_mem hStamps hi
  have hMemFirst := stampAt_mem hStamps (show 0 < msg.count by omega)
  have hDifference : stampAt msg ft i - stampAt msg ft 0 ∈ differences msg := by
    rw [differences, hFirst]
    exact List.mem_map_of_mem hMem
  have hNear := h.near hMem
  rw [hFirst] at hNear
  exact toUint32_of_in_range (h.finite _ hMem) (h.finite _ hMemFirst) hNear (hRange _ hDifference)

/-- A later stamp has no smaller offset. -/
theorem offsetAt_mono {i j : ℕ} (hi : i < msg.count) (hj : j < msg.count) (hOrder : stampAt msg ft i ≤ stampAt msg ft j) :
    offsetAt msg ft i ≤ offsetAt msg ft j := by
  have hFinite {k : ℕ} (hk : k < msg.count) := h.finite _ (stampAt_mem hStamps hk)
  have hStampsLe := (le_iff_toRat (hFinite hi) (hFinite hj)).mp hOrder
  have hFloors := Int.floor_mono (difference_mono (y := stampAt msg ft 0) hStampsLe)
  rw [← (offsetAt_spec h hStamps hRange hi).2, ← (offsetAt_spec h hStamps hRange hj).2] at hFloors
  rw [UInt32.le_iff_toNat_le]
  omega

end InRange

end Frame

theorem getElem?_map_range {α : Type} {f : ℕ → α} {n i : ℕ} {a : α} (h : ((List.range n).map f)[i]? = some a) :
    i < n ∧ a = f i := by
  rw [List.getElem?_map] at h
  obtain ⟨k, hIndex, rfl⟩ := Option.map_eq_some_iff.mp h
  obtain ⟨hi, rfl⟩ := List.getElem?_eq_some_iff.mp hIndex
  rw [List.getElem_range]
  exact ⟨by simpa using hi, rfl⟩

theorem keepsTime_of_in_range (initial : Bool) {msg : StampedCloud} (hReads : (pc2ToLidarFrame msg.toPointCloud2).isSome)
    (h : Nanoseconds msg.toPointCloud2) (hRange : ∀ d ∈ differences msg.toPointCloud2, 0 ≤ d ∧ d < 4294967296) :
    KeepsTime initial msg := by
  refine ⟨hRange, ?_⟩
  unfold lidarFrame
  by_cases hCoordinates : CoordinateMissing msg.toPointCloud2
  · rw [if_pos hCoordinates]
    refine ⟨_, rfl, ?_⟩
    intro i j s t p q hs ht hp
    cases hp
  · obtain ⟨ft, hField, -⟩ := h.field
    have hStamps := stamps_eq hField hCoordinates
    obtain ⟨state, hState, -, hOffsets⟩ := foldlM_pushPoint hField (lidarPoint_isSome hReads hCoordinates)
      fun i hi => (offsetAt_spec h hStamps hRange hi).1
    simp only [if_neg hCoordinates, hState, Option.bind_eq_bind, Option.bind_some]
    split
    · -- All offsets are zeroed.
      refine ⟨_, rfl, ?_⟩
      have hZero {i : ℕ} {p : TimedPoint}
          (hp : (state.2.map fun pt => { pt with offsetNs := 0 })[i]? = some p) : p.offsetNs = 0 := by
        rw [List.getElem?_map] at hp
        obtain ⟨pt, -, rfl⟩ := Option.map_eq_some_iff.mp hp
        rfl
      intro i j s t p q hs ht hp hq hOrder
      rw [hZero hp, hZero hq]
      exact UInt32.le_refl 0
    · refine ⟨_, rfl, ?_⟩
      have hOffset {i : ℕ} {p : TimedPoint} (hp : state.2[i]? = some p) :
          p.offsetNs = offsetAt msg.toPointCloud2 ft i := by
        have hMap : (state.2.map TimedPoint.offsetNs)[i]? = some p.offsetNs := by
          rw [List.getElem?_map, hp]
          rfl
        rw [hOffsets] at hMap
        exact (getElem?_map_range hMap).2
      intro i j s t p q hs ht hp hq hOrder
      rw [hStamps] at hs ht
      obtain ⟨hi, rfl⟩ := getElem?_map_range hs
      obtain ⟨hj, rfl⟩ := getElem?_map_range ht
      rw [hOffset hp, hOffset hq]
      exact offsetAt_mono h hStamps hRange hi hj hOrder

/-- The frame has the points of the model without times. -/
theorem points_of_lidarFrame {initial : Bool} {msg : StampedCloud} {frame : LidarFrame}
    (h : lidarFrame initial msg = some frame) :
    pc2ToLidarFrame msg.toPointCloud2 = some (frame.points.map TimedPoint.point) := by
  unfold lidarFrame at h
  dsimp only at h
  split at h
  · rename_i hCoordinates
    obtain rfl := Option.some.inj h
    exact if_pos hCoordinates
  · rename_i hCoordinates
    obtain ⟨state, hState, h⟩ := Option.bind_eq_some_iff.mp h
    have hPoints := points_of_foldlM hState
    unfold CoordinateMissing at hCoordinates
    rw [pc2ToLidarFrame, if_neg hCoordinates, hPoints]
    split at h
    · obtain rfl := Option.some.inj h
      rw [List.map_map]
      rfl
    · obtain rfl := Option.some.inj h
      rfl

/-- Stamps of whole nanoseconds do not round up. -/
theorem firstLeast_iff_of_whole {msg : PointCloud2} (h : Nanoseconds msg) (hWhole : ∀ t ∈ stamps msg, ∃ n : ℤ, toRat t = n) :
    FirstLeast msg ↔ ∀ t ∈ stamps msg, toRat (firstStamp msg) ≤ toRat t := by
  constructor
  · intro hLeast t ht
    exact (hLeast t ht).1
  · intro hLeast t ht
    refine ⟨hLeast t ht, ?_⟩
    obtain ⟨n, hn⟩ := hWhole t ht
    obtain ⟨m, hm⟩ := hWhole _ (firstStamp_mem ht)
    have hSpan := h.span _ (firstStamp_mem ht) t ht
    rw [hn, hm] at hSpan ⊢
    have hInt : n - m < 2 ^ 32 := by exact_mod_cast hSpan
    have hBelow : ((n - m : ℤ) : ℚ) ≤ 2 ^ 32 - 1 := by exact_mod_cast (show n - m ≤ 2 ^ 32 - 1 by omega)
    have hStep : (2 : ℚ) ^ (-22 : ℤ) < 1 := by norm_num
    push_cast at hBelow
    linarith

/-- Two clouds, each in the order of its stamps, one behind the other. -/
theorem first_least_append {first : Float} {rest later : List Float}
    (hFirst : (first :: rest).Pairwise fun s t => toRat s ≤ toRat t) (hLater : later.Pairwise fun s t => toRat s ≤ toRat t) :
    (∀ t ∈ first :: rest ++ later, toRat first ≤ toRat t) ↔ ∀ t ∈ later.head?, toRat first ≤ toRat t := by
  constructor
  · intro h t ht
    exact h t (List.mem_append_right _ (List.mem_of_mem_head? ht))
  · intro h t ht
    rcases List.mem_append.mp ht with hOwn | hOther
    · rcases List.mem_cons.mp hOwn with rfl | hRest
      · exact le_rfl
      · exact (List.pairwise_cons.mp hFirst).1 t hRest
    · cases later with
      | nil => cases hOther
      | cons head tail =>
        have hHead := h head rfl
        rcases List.mem_cons.mp hOther with rfl | hTail
        · exact hHead
        · exact hHead.trans ((List.pairwise_cons.mp hLater).1 t hTail)

/-- Any `UINT32` is a whole number of nanoseconds, and no two of them are too far apart. -/
theorem nanoseconds_of_uint32 {msg : PointCloud2} {ft : PointField} (hField : timeField msg = some ft)
    (hType : ft.datatype = 6) : Nanoseconds msg ∧ ∀ t ∈ stamps msg, ∃ n : ℤ, toRat t = n := by
  have hStamp : ∀ t ∈ stamps msg, ∃ n : UInt32, t = n.toFloat := by
    intro t ht
    unfold stamps at ht
    rw [hField] at ht
    dsimp only at ht
    split at ht
    · cases ht
    · obtain ⟨i, -, rfl⟩ := List.mem_map.mp ht
      refine ⟨word ((copyTime msg (i * msg.step)).getD []), ?_⟩
      unfold stampAt stampOf
      rw [hType, if_neg (by decide), if_neg (by decide), if_pos rfl]
  refine ⟨⟨⟨ft, hField, .inr hType⟩, ?_, ?_⟩, ?_⟩
  · intro t ht
    obtain ⟨n, rfl⟩ := hStamp t ht
    exact (toFloat_spec n).1
  · intro s hs t ht
    obtain ⟨m, rfl⟩ := hStamp s hs
    obtain ⟨n, rfl⟩ := hStamp t ht
    have hBelow : (n.toNat : ℚ) < 2 ^ 32 := by exact_mod_cast n.toNat_lt
    have hNonneg : (0 : ℚ) ≤ m.toNat := Nat.cast_nonneg _
    rw [(toFloat_spec n).2, (toFloat_spec m).2]
    linarith
  · intro t ht
    obtain ⟨n, rfl⟩ := hStamp t ht
    exact ⟨n.toNat, by rw [(toFloat_spec n).2, Int.cast_natCast]⟩

/-- The times are sound exactly where no point is stamped before the one that comes first. Of two clouds in the
order of their stamps, one behind the other, it is the one that began first that has to be in front. -/
theorem keepsTime_iff (initial : Bool) {msg : StampedCloud} (hReads : (pc2ToLidarFrame msg.toPointCloud2).isSome)
    (hStamps : Nanoseconds msg.toPointCloud2) :
    (KeepsTime initial msg ↔ FirstLeast msg.toPointCloud2) ∧
    ((∀ t ∈ stamps msg.toPointCloud2, ∃ n : ℤ, toRat t = n) →
      (KeepsTime initial msg ↔ ∀ t ∈ stamps msg.toPointCloud2, toRat (firstStamp msg.toPointCloud2) ≤ toRat t) ∧
      ∀ first rest later, stamps msg.toPointCloud2 = first :: rest ++ later →
        (first :: rest).Pairwise (fun s t => toRat s ≤ toRat t) → later.Pairwise (fun s t => toRat s ≤ toRat t) →
        (KeepsTime initial msg ↔ ∀ t ∈ later.head?, toRat first ≤ toRat t)) := by
  have hKeeps : KeepsTime initial msg ↔ FirstLeast msg.toPointCloud2 := by
    rw [← differences_in_range_iff hStamps]
    exact ⟨KeepsTime.in_range, keepsTime_of_in_range initial hReads hStamps⟩
  refine ⟨hKeeps, ?_⟩
  intro hWhole
  have hLeast := hKeeps.trans (firstLeast_iff_of_whole hStamps hWhole)
  refine ⟨hLeast, ?_⟩
  intro first rest later hSplit hFirst hLater
  have hHead : firstStamp msg.toPointCloud2 = first := by
    rw [firstStamp, hSplit]
    rfl
  rw [hLeast, hHead, hSplit]
  exact first_least_append hFirst hLater

def stampedRow (stamp : Float) : List UInt8 := List.replicate 12 0 ++ le 8 stamp.toBits.toNat

/-- Points at the origin with their stamps as `FLOAT64`. -/
def stampedCloud (stamps : List Float) : StampedCloud where
  sec := 0
  nanosec := 0
  frameId := "livox_frame"
  height := 1
  width := UInt32.ofNat stamps.length
  fields := [⟨"x", 0, 7⟩, ⟨"y", 4, 7⟩, ⟨"z", 8, 7⟩, ⟨"timestamp", 12, 8⟩]
  pointStep := 20
  data := stamps.flatMap stampedRow

/-- The second sensor behind the one that began earlier. -/
theorem nanoseconds_in_order : Nanoseconds (stampedCloud ([95, 105] ++ [100, 110])).toPointCloud2 where
  field := ⟨⟨"timestamp", 12, 8⟩, by decide +kernel, .inl rfl⟩
  finite := by decide +kernel
  span := by decide +kernel

theorem keepsTime_iff_in_order : KeepsTime false (stampedCloud ([95, 105] ++ [100, 110])) := by
  have hReads : (pc2ToLidarFrame (stampedCloud ([95, 105] ++ [100, 110])).toPointCloud2).isSome := by decide +kernel
  have hLeast : FirstLeast (stampedCloud ([95, 105] ++ [100, 110])).toPointCloud2 := by
    unfold FirstLeast
    decide +kernel
  exact (keepsTime_iff false hReads nanoseconds_in_order).1.mpr hLeast

/-- The other way around, `static_cast<uint32_t>` is given −5. -/
theorem nanoseconds_out_of_order : Nanoseconds (stampedCloud ([100, 110] ++ [95, 105])).toPointCloud2 where
  field := ⟨⟨"timestamp", 12, 8⟩, by decide +kernel, .inl rfl⟩
  finite := by decide +kernel
  span := by decide +kernel

theorem keepsTime_out_of_order : ¬∀ (initial : Bool) (msg : StampedCloud), (pc2ToLidarFrame msg.toPointCloud2).isSome →
    Nanoseconds msg.toPointCloud2 → KeepsTime initial msg := by
  intro h
  have hReads : (pc2ToLidarFrame (stampedCloud ([100, 110] ++ [95, 105])).toPointCloud2).isSome := by decide +kernel
  have hRange := (h false _ hReads nanoseconds_out_of_order).in_range
  have hNegative : ¬∀ d ∈ differences (stampedCloud ([100, 110] ++ [95, 105])).toPointCloud2, 0 ≤ d ∧ d < 4294967296 := by
    decide +kernel
  exact hNegative hRange

end RoveMapping.Slam
