import RoveMapping.Livox.PointCloudMsg

/-! # The times of the published points

`InitPointcloud2Msg` converts the time of each point to a `double`, and the SLAM node takes the difference of two of
these: about 2⁶⁰ nanoseconds since the epoch leave steps of 256 nanoseconds. A `CustomMsg` has the exact differences.
-/
namespace RoveMapping.Livox
open Bytes Fallible Binary64 NearestEven
set_option autoImplicit false

/-- Years up to 2038, in nanoseconds. -/
abbrev epochEnd : ℕ := 2 ^ 31 * 1000000000

/-- The seconds and nanoseconds of a time that `int32_t` seconds can hold. -/
def KeepsStamp (stamp : UInt64 → Int32 × UInt32) : Prop :=
  ∀ time : UInt64, time.toNat < epochEnd → 0 ≤ (stamp time).1.toInt ∧
    (stamp time).1.toInt * 1000000000 + (stamp time).2.toNat = time.toNat

/-- No point is before the base time, and the last is less than 2³² − 512 nanoseconds behind it. -/
structure StoragePacket.Steady (pkg : StoragePacket) : Prop where
  after : ∀ point ∈ pkg.points, pkg.baseTime ≤ point.offsetTime
  span : ∀ point ∈ pkg.points, point.offsetTime.toNat < pkg.baseTime.toNat + (2 ^ 32 - 512)
  epoch : ∀ point ∈ pkg.points, point.offsetTime.toNat < epochEnd

structure StoragePacket.InTime (pkg : StoragePacket) : Prop extends pkg.Steady where
  base : pkg.points.head?.map PointXyzlt.offsetTime = some pkg.baseTime

section Rounding

variable (time : UInt64)

/-- What a reader makes of the bytes of a time. -/
def publishedTime (time : UInt64) : Float := Float.ofBits time.toFloat.toBits

def roundedTime (time : UInt64) : ℚ := magnitude 53 (-1074) time.toNat

theorem publishedTime_spec : (publishedTime time).isFinite = true ∧ toRat (publishedTime time) = roundedTime time := by
  obtain ⟨hFinite, hValue⟩ := toFloat_spec_uint64 time
  obtain ⟨hFinite', hValue'⟩ := toRat_ofBits hFinite
  exact ⟨hFinite', hValue'.trans hValue⟩

theorem stampOf_publishedTime : Slam.stampOf 8 (le 8 time.toFloat.toBits.toNat) = publishedTime time := by
  rw [Slam.stampOf, if_pos rfl, readLE_le time.toFloat.toBits.toNat_lt, UInt64.ofNat_toNat]
  rfl

variable {time}

theorem roundedTime_near (h : time.toNat < epochEnd) : |roundedTime time - time.toNat| ≤ 128 := by
  rcases Nat.eq_zero_or_pos time.toNat with hZero | hPos
  · rw [roundedTime, hZero, Nat.cast_zero, magnitude_zero]
    norm_num
  · have hPosRat : (0 : ℚ) < time.toNat := by exact_mod_cast hPos
    have hTop : (time.toNat : ℚ) < 2 ^ (61 : ℤ) := by
      have hNat : time.toNat < 2 ^ 61 := h.trans (by norm_num)
      exact_mod_cast hNat
    have hLeast : (-1074 : ℤ) ≤ 61 - (53 : ℕ) := by norm_num
    exact (abs_magnitude_sub_le hLeast hPosRat hTop).trans (by norm_num)

theorem roundedTime_mono {time' : UInt64} (h : time ≤ time') : roundedTime time ≤ roundedTime time' := by
  have hNat : time.toNat ≤ time'.toNat := UInt64.le_iff_toNat_le.mp h
  rcases Nat.eq_zero_or_pos time.toNat with hZero | hPos
  · rw [roundedTime, hZero, Nat.cast_zero, magnitude_zero]
    exact magnitude_nonneg 53 (-1074) (Nat.cast_nonneg _)
  · exact magnitude_mono (-1074) (by norm_num) (by exact_mod_cast hPos) (by exact_mod_cast hNat)

end Rounding

section Differences

variable {time base : UInt64} (hTime : time.toNat < epochEnd) (hBase : base.toNat < epochEnd)
include hTime hBase

/-- The difference of two published times is off by 256 nanoseconds at the most. -/
theorem difference_near : |(roundedTime time - roundedTime base) - ((time.toNat : ℚ) - base.toNat)| ≤ 256 := by
  obtain ⟨hLow, hHigh⟩ := abs_le.mp (roundedTime_near hTime)
  obtain ⟨hLow', hHigh'⟩ := abs_le.mp (roundedTime_near hBase)
  rw [abs_le]
  constructor <;> linarith

variable (hAfter : base ≤ time) (hSpan : time.toNat < base.toNat + (2 ^ 32 - 512))
include hAfter hSpan

/-- It is a whole number, so that it is not rounded again. -/
theorem difference_published : ∃ n : ℕ, difference (publishedTime time) (publishedTime base) = n ∧
    roundedTime time - roundedTime base = n ∧ n < 2 ^ 32 - 256 := by
  obtain ⟨m, hm⟩ := exists_magnitude_natCast 53 (-1074) time.toNat
  obtain ⟨k, hk⟩ := exists_magnitude_natCast 53 (-1074) base.toNat
  have hOrder : roundedTime base ≤ roundedTime time := roundedTime_mono hAfter
  have hNear := (abs_le.mp (difference_near hTime hBase)).2
  have hSpanRat : (time.toNat : ℚ) < base.toNat + (2 ^ 32 - 512) := by
    have hCast : ((time.toNat : ℕ) : ℚ) < ((base.toNat + (2 ^ 32 - 512) : ℕ) : ℚ) := by exact_mod_cast hSpan
    push_cast at hCast
    linarith
  have hBelow : roundedTime time - roundedTime base < 2 ^ 32 - 256 := by linarith
  have hWhole : roundedTime time - roundedTime base = ((m - k : ℤ) : ℚ) := by
    rw [roundedTime, roundedTime, hm, hk]
    push_cast
    rfl
  have hNonneg : 0 ≤ m - k := by
    have hRat : (0 : ℚ) ≤ ((m - k : ℤ) : ℚ) := by rw [← hWhole]; linarith
    exact_mod_cast hRat
  obtain ⟨n, hn⟩ := Int.eq_ofNat_of_zero_le hNonneg
  rw [hn, Int.cast_natCast] at hWhole
  have hLt : n < 2 ^ 32 - 256 := by
    rw [hWhole] at hBelow
    have hCast : ((n + 256 : ℕ) : ℚ) < ((2 ^ 32 : ℕ) : ℚ) := by
      push_cast
      linarith
    have hNat : n + 256 < 2 ^ 32 := by exact_mod_cast hCast
    omega
  refine ⟨n, ?_, hWhole, hLt⟩
  rw [difference, (publishedTime_spec time).2, (publishedTime_spec base).2, hWhole, rounded,
    if_neg (not_lt.mpr (Nat.cast_nonneg n)), magnitude_natCast (by omega)]

end Differences

section Loop

variable {msg : Slam.PointCloud2} {ft : Slam.PointField}

/-- `t_max` is zero or one of the differences. -/
theorem max_of_foldlM (hField : Slam.timeField msg = some ft) {n : ℕ} {state : Slam.Times × List Slam.TimedPoint}
    (h : (List.range n).foldlM (Slam.pushPoint msg) (⟨0, 0⟩, []) = some state) :
    (n ≠ 0 → state.1.first = Slam.stampAt msg ft 0) ∧
      (state.1.max = 0 ∨ ∃ i < n, state.1.max = Slam.stampAt msg ft i - Slam.stampAt msg ft 0) := by
  induction n generalizing state with
  | zero =>
    cases h
    exact ⟨fun hZero => absurd rfl hZero, .inl rfl⟩
  | succ n ih =>
    rw [foldlM_range_succ] at h
    obtain ⟨before, hBefore, h⟩ := Option.bind_eq_some_iff.mp h
    obtain ⟨hFirst, hMax⟩ := ih hBefore
    rw [Slam.pushPoint, hField] at h
    obtain ⟨point, -, h⟩ := Option.bind_eq_some_iff.mp h
    obtain ⟨bytes, hBytes, h⟩ := Option.bind_eq_some_iff.mp h
    obtain ⟨⟨times, offsetNs⟩, hTimes, h⟩ := Option.bind_eq_some_iff.mp h
    cases h
    have hStamp : Slam.stampOf ft.datatype bytes = Slam.stampAt msg ft n := by rw [Slam.stampAt, hBytes, Option.getD_some]
    have hReference : (if n = 0 then Slam.stampAt msg ft n else before.1.first) = Slam.stampAt msg ft 0 := by
      split
      · rename_i hZero
        rw [hZero]
      · exact hFirst ‹_›
    rw [Slam.readTime, hStamp] at hTimes
    simp only [hReference] at hTimes
    obtain ⟨offset, -, hTimes⟩ := Option.bind_eq_some_iff.mp hTimes
    cases hTimes
    refine ⟨fun _ => rfl, ?_⟩
    show (if before.1.max < _ then _ else before.1.max) = 0 ∨ _
    split
    · exact .inr ⟨n, Nat.lt_succ_self n, rfl⟩
    · rcases hMax with hZero | ⟨i, hi, hMax⟩
      · exact .inl hZero
      · exact .inr ⟨i, hi.trans (Nat.lt_succ_self n), hMax⟩

end Loop

section Frame

def timestampField : Slam.PointField := ⟨"timestamp", 18, 8⟩

variable (stamp : UInt64 → Int32 × UInt32) (frameId : String) {pkg : StoragePacket}

theorem timeField_initPointcloud2Msg :
    Slam.timeField (initPointcloud2Msg stamp frameId pkg).toPointCloud2 = some timestampField := by
  have hSet : 0 ≤ Slam.offsetInt (some timestampField) := by decide
  show (if 0 ≤ Slam.offsetInt (some timestampField) then some timestampField else none) = _
  exact if_pos hSet

variable (hWhole : pkg.Whole) (hNum : pkg.pointsNum < 2 ^ 32)
include hWhole hNum

theorem stampAt_initPointcloud2Msg {i : ℕ} {point : PointXyzlt} (h : pkg.points[i]? = some point) :
    Slam.stampAt (initPointcloud2Msg stamp frameId pkg).toPointCloud2 timestampField i = publishedTime point.offsetTime := by
  rw [Slam.stampAt, copyTime_initPointcloud2Msg stamp frameId hWhole hNum h]
  exact stampOf_publishedTime _

theorem stamps_initPointcloud2Msg : Slam.stamps (initPointcloud2Msg stamp frameId pkg).toPointCloud2 =
    pkg.points.map fun point => publishedTime point.offsetTime := by
  rw [Slam.stamps_eq (timeField_initPointcloud2Msg stamp frameId) (not_coordinateMissing stamp frameId pkg),
    count_initPointcloud2Msg stamp frameId hWhole hNum]
  apply List.ext_getElem
  · simp
  · intro i hi hi'
    have hLt : i < pkg.points.length := by simpa using hi
    rw [List.getElem_map, List.getElem_range, List.getElem_map]
    exact stampAt_initPointcloud2Msg stamp frameId hWhole hNum (List.getElem?_eq_getElem hLt)

variable (hTimes : pkg.InTime)
include hTimes

omit hWhole hNum in
theorem StoragePacket.InTime.first : ∃ first, pkg.points[0]? = some first ∧ first.offsetTime = pkg.baseTime := by
  obtain ⟨first, hFirst, hBase⟩ := Option.map_eq_some_iff.mp hTimes.base
  exact ⟨first, by rw [← List.head?_eq_getElem?, hFirst], hBase⟩

omit hWhole hNum in
theorem StoragePacket.InTime.base_lt : pkg.baseTime.toNat < epochEnd := by
  obtain ⟨first, hFirst, hBase⟩ := hTimes.first
  rw [← hBase]
  exact hTimes.epoch first (List.mem_of_getElem? hFirst)

theorem stampAt_zero : Slam.stampAt (initPointcloud2Msg stamp frameId pkg).toPointCloud2 timestampField 0 =
    publishedTime pkg.baseTime := by
  obtain ⟨first, hFirst, hBase⟩ := hTimes.first
  rw [stampAt_initPointcloud2Msg stamp frameId hWhole hNum hFirst, hBase]

theorem firstStamp_initPointcloud2Msg :
    Slam.firstStamp (initPointcloud2Msg stamp frameId pkg).toPointCloud2 = publishedTime pkg.baseTime := by
  obtain ⟨first, hFirst, hBase⟩ := hTimes.first
  rw [Slam.firstStamp, stamps_initPointcloud2Msg stamp frameId hWhole hNum, List.headD_eq_head?_getD, List.head?_map,
    List.head?_eq_getElem?, hFirst, ← hBase]
  rfl

theorem nanoseconds_initPointcloud2Msg : Slam.Nanoseconds (initPointcloud2Msg stamp frameId pkg).toPointCloud2 where
  field := ⟨timestampField, timeField_initPointcloud2Msg stamp frameId, .inl rfl⟩
  finite t ht := by
    rw [stamps_initPointcloud2Msg stamp frameId hWhole hNum] at ht
    obtain ⟨point, -, rfl⟩ := List.mem_map.mp ht
    exact (publishedTime_spec _).1
  span t ht u hu := by
    rw [stamps_initPointcloud2Msg stamp frameId hWhole hNum] at ht hu
    obtain ⟨point, hPoint, rfl⟩ := List.mem_map.mp ht
    obtain ⟨later, hLater, rfl⟩ := List.mem_map.mp hu
    rw [(publishedTime_spec _).2, (publishedTime_spec _).2]
    have hBefore := roundedTime_mono (hTimes.after point hPoint)
    obtain ⟨n, -, hn, hBelow⟩ := difference_published (hTimes.epoch later hLater) hTimes.base_lt (hTimes.after later hLater)
      (hTimes.span later hLater)
    have hRat : (n : ℚ) < 2 ^ 32 := by exact_mod_cast hBelow.trans (by norm_num)
    linarith

theorem firstLeast_initPointcloud2Msg : Slam.FirstLeast (initPointcloud2Msg stamp frameId pkg).toPointCloud2 := by
  intro t ht
  rw [stamps_initPointcloud2Msg stamp frameId hWhole hNum] at ht
  obtain ⟨point, hPoint, rfl⟩ := List.mem_map.mp ht
  rw [firstStamp_initPointcloud2Msg stamp frameId hWhole hNum hTimes, (publishedTime_spec _).2, (publishedTime_spec _).2]
  refine ⟨roundedTime_mono (hTimes.after point hPoint), ?_⟩
  obtain ⟨n, -, hn, hBelow⟩ := difference_published (hTimes.epoch point hPoint) hTimes.base_lt (hTimes.after point hPoint)
    (hTimes.span point hPoint)
  have hRat : (n : ℚ) < 2 ^ 32 - 256 := by
    have hCast : ((n + 256 : ℕ) : ℚ) < ((2 ^ 32 : ℕ) : ℚ) := by exact_mod_cast (show n + 256 < 2 ^ 32 by omega)
    push_cast at hCast
    linarith
  rw [hn]
  have hStep : (2 : ℚ) ^ (-22 : ℤ) < 1 := by norm_num
  linarith

/-- The offset that the node stores is the difference of the rounded times. -/
theorem offsetAt_initPointcloud2Msg {i : ℕ} {point : PointXyzlt} (h : pkg.points[i]? = some point) :
    Slam.toUint32? (Slam.stampAt (initPointcloud2Msg stamp frameId pkg).toPointCloud2 timestampField i -
      Slam.stampAt (initPointcloud2Msg stamp frameId pkg).toPointCloud2 timestampField 0) =
        some (Slam.offsetAt (initPointcloud2Msg stamp frameId pkg).toPointCloud2 timestampField i) ∧
      ((Slam.offsetAt (initPointcloud2Msg stamp frameId pkg).toPointCloud2 timestampField i).toNat : ℚ) =
        roundedTime point.offsetTime - roundedTime pkg.baseTime := by
  have hMem := List.mem_of_getElem? h
  have hNanoseconds := nanoseconds_initPointcloud2Msg stamp frameId hWhole hNum hTimes
  have hRange := (Slam.differences_in_range_iff hNanoseconds).mpr (firstLeast_initPointcloud2Msg stamp frameId hWhole hNum hTimes)
  have hStamps := Slam.stamps_eq (timeField_initPointcloud2Msg stamp frameId) (not_coordinateMissing stamp frameId pkg)
  have hLt : i < (initPointcloud2Msg stamp frameId pkg).count := by
    rw [count_initPointcloud2Msg stamp frameId hWhole hNum]
    exact (List.getElem?_eq_some_iff.mp h).1
  obtain ⟨hDefined, hFloor⟩ := Slam.offsetAt_spec hNanoseconds hStamps hRange hLt
  refine ⟨hDefined, ?_⟩
  obtain ⟨n, hDifference, hWholeNumber, -⟩ := difference_published (hTimes.epoch point hMem) hTimes.base_lt
    (hTimes.after point hMem) (hTimes.span point hMem)
  rw [stampAt_initPointcloud2Msg stamp frameId hWhole hNum h, stampAt_zero stamp frameId hWhole hNum hTimes, hDifference,
    Int.floor_natCast] at hFloor
  rw [hWholeNumber]
  exact_mod_cast hFloor

/-- `t_max` is a whole number of nanoseconds, so that the offsets are never cleared. -/
theorem max_initPointcloud2Msg {state : Slam.Times × List Slam.TimedPoint}
    (h : (List.range (initPointcloud2Msg stamp frameId pkg).count).foldlM
      (Slam.pushPoint (initPointcloud2Msg stamp frameId pkg).toPointCloud2) (⟨0, 0⟩, []) = some state) :
    ¬(0 < state.1.max ∧ state.1.max < 1) := by
  rintro ⟨hPos, hBelow⟩
  rcases (max_of_foldlM (timeField_initPointcloud2Msg stamp frameId) h).2 with hZero | ⟨i, hi, hMax⟩
  · rw [hZero] at hPos
    exact absurd hPos (by decide +kernel)
  · rw [count_initPointcloud2Msg stamp frameId hWhole hNum] at hi
    have hPoint : pkg.points[i]? = some pkg.points[i] := List.getElem?_eq_getElem hi
    have hMem := List.mem_of_getElem? hPoint
    rw [stampAt_initPointcloud2Msg stamp frameId hWhole hNum hPoint, stampAt_zero stamp frameId hWhole hNum hTimes] at hMax
    obtain ⟨n, hDifference, hn, hLt⟩ := difference_published (hTimes.epoch _ hMem) hTimes.base_lt (hTimes.after _ hMem)
      (hTimes.span _ hMem)
    obtain ⟨hFinite, hValue⟩ := Slam.sub_stamps (publishedTime_spec pkg.points[i].offsetTime).1
      (publishedTime_spec pkg.baseTime).1 (by
        rw [(publishedTime_spec _).2, (publishedTime_spec _).2, hn, abs_of_nonneg (Nat.cast_nonneg n)]
        exact_mod_cast hLt.trans (by norm_num))
    have hZero : toRat 0 = 0 := by decide +kernel
    have hOne : toRat 1 = 1 := by decide +kernel
    rw [hMax, lt_iff_toRat (by decide +kernel) hFinite, hZero, hValue, hDifference] at hPos
    rw [hMax, lt_iff_toRat hFinite (by decide +kernel), hOne, hValue, hDifference] at hBelow
    have hLow : 0 < n := by exact_mod_cast hPos
    have hHigh : n < 1 := by exact_mod_cast hBelow
    omega

end Frame

/-- The frame has the points of the packet, in order, with their times to 256 nanoseconds. -/
structure Keeps (pkg : StoragePacket) (frame : Slam.LidarFrame) : Prop where
  timestamp : frame.timestampNs = pkg.baseTime
  timed : frame.hasPerPointTime = true
  points : frame.points.map Slam.TimedPoint.point = pkg.points.map PointXyzlt.words
  near : ∀ (i : ℕ) (point : PointXyzlt) (timed : Slam.TimedPoint), pkg.points[i]? = some point → frame.points[i]? = some timed →
    |(timed.offsetNs.toNat : ℤ) - (point.offsetTime.toNat - pkg.baseTime.toNat)| ≤ 256
  ordered : ∀ (i j : ℕ) (point point' : PointXyzlt) (timed timed' : Slam.TimedPoint), pkg.points[i]? = some point →
    pkg.points[j]? = some point' → frame.points[i]? = some timed → frame.points[j]? = some timed' →
    point.offsetTime ≤ point'.offsetTime → timed.offsetNs ≤ timed'.offsetNs

theorem timestamp_of_stamp {sec : Int32} {nanosec : UInt32} {time : UInt64} (hSec : 0 ≤ sec.toInt)
    (hSum : sec.toInt * 1000000000 + nanosec.toNat = time.toNat) :
    UInt64.ofInt sec.toInt * 1000000000 + nanosec.toUInt64 = time := by
  obtain ⟨n, hn⟩ := Int.eq_ofNat_of_zero_le hSec
  have hTime := time.toNat_lt
  rw [hn] at hSum ⊢
  apply UInt64.toNat_inj.mp
  have hNat : n * 1000000000 + nanosec.toNat = time.toNat := by exact_mod_cast hSum
  have hOf : UInt64.ofInt (n : ℤ) = UInt64.ofNat n := by
    have hMod : ((n : ℤ) % 2 ^ 64).toNat = n := by omega
    rw [UInt64.ofInt, hMod]
  rw [hOf, UInt64.toNat_add, UInt64.toNat_mul, UInt64.toNat_ofNat', UInt32.toNat_toUInt64]
  have hFactor : (1000000000 : UInt64).toNat = 1000000000 := rfl
  rw [hFactor, Nat.mod_eq_of_lt (show n < 2 ^ 64 by omega), Nat.mod_eq_of_lt (show n * 1000000000 < 2 ^ 64 by omega), hNat,
    Nat.mod_eq_of_lt hTime]

theorem timestamp_eq {pkg : StoragePacket} (hTimes : pkg.InTime) : pkg.timestamp = pkg.baseTime := by
  obtain ⟨first, hFirst, -⟩ := hTimes.first
  have hSome : pkg.points ≠ [] := fun hNil => by
    rw [hNil] at hFirst
    cases hFirst
  rw [StoragePacket.timestamp, if_neg (by simpa using hSome)]

/-- What the node makes of a published packet, whatever its new frames begin with. -/
theorem lidarFrame_published {stamp : UInt64 → Int32 × UInt32} (hStamp : KeepsStamp stamp) (frameId : String) (initial : Bool)
    {pkg : StoragePacket} (hWhole : pkg.Whole) (hNum : pkg.pointsNum < 2 ^ 32) (hTimes : pkg.InTime) :
    ∃ frame, Slam.lidarFrame initial (initPointcloud2Msg stamp frameId pkg) = some frame ∧ Keeps pkg frame := by
  have hField := @timeField_initPointcloud2Msg stamp frameId pkg
  have hCount := count_initPointcloud2Msg stamp frameId hWhole hNum
  have hPoint {i : ℕ} (hi : i < (initPointcloud2Msg stamp frameId pkg).count) : pkg.points[i]? = some pkg.points[i] :=
    List.getElem?_eq_getElem (hCount ▸ hi)
  obtain ⟨state, hState, -, hOffsets⟩ := Slam.foldlM_pushPoint hField
    (fun i hi => by rw [lidarPoint_initPointcloud2Msg stamp frameId hWhole hNum (hPoint hi)]; rfl)
    (fun i hi => (offsetAt_initPointcloud2Msg stamp frameId hWhole hNum hTimes (hPoint hi)).1)
  have hMax := max_initPointcloud2Msg stamp frameId hWhole hNum hTimes hState
  have hWords : state.2.map Slam.TimedPoint.point = pkg.points.map PointXyzlt.words := by
    have hPoints := Slam.points_of_foldlM hState
    have hAll := pc2ToLidarFrame_initPointcloud2Msg stamp frameId hWhole hNum
    have hComplete := not_coordinateMissing stamp frameId pkg
    unfold Slam.CoordinateMissing at hComplete
    rw [Slam.pc2ToLidarFrame, if_neg hComplete, hPoints] at hAll
    exact Option.some_inj.mp hAll
  have hOffset {i : ℕ} {point : PointXyzlt} {timed : Slam.TimedPoint} (hp : pkg.points[i]? = some point)
      (ht : state.2[i]? = some timed) : (timed.offsetNs.toNat : ℚ) = roundedTime point.offsetTime - roundedTime pkg.baseTime := by
    have hEntry : (state.2.map Slam.TimedPoint.offsetNs)[i]? = some timed.offsetNs := by
      rw [List.getElem?_map, ht]
      rfl
    rw [hOffsets] at hEntry
    rw [(Slam.getElem?_map_range hEntry).2]
    exact (offsetAt_initPointcloud2Msg stamp frameId hWhole hNum hTimes hp).2
  obtain ⟨hSec, hSum⟩ := hStamp pkg.baseTime hTimes.base_lt
  have hTimestamp := timestamp_eq hTimes
  rw [← hTimestamp] at hSec hSum
  let frame : Slam.LidarFrame :=
    { timestampNs := UInt64.ofInt (stamp pkg.timestamp).1.toInt * 1000000000 + (stamp pkg.timestamp).2.toUInt64
      frameId := frameId
      hasPerPointTime := true
      points := state.2 }
  refine ⟨frame, ?_, (timestamp_of_stamp hSec hSum).trans hTimestamp, rfl, hWords, fun i point timed hp ht => ?_,
    fun i j point point' timed timed' hp hp' ht ht' hOrder => ?_⟩
  · rw [Slam.lidarFrame, if_neg (not_coordinateMissing stamp frameId pkg)]
    simp only [hState, hField, Option.bind_eq_bind, Option.bind_some, Option.isSome_some, true_and, if_neg hMax]
    rfl
  · have hNear := difference_near (hTimes.epoch point (List.mem_of_getElem? hp)) hTimes.base_lt
    rw [← hOffset hp ht] at hNear
    exact_mod_cast hNear
  · have hMono := roundedTime_mono hOrder
    have hRat : (timed.offsetNs.toNat : ℚ) ≤ timed'.offsetNs.toNat := by
      rw [hOffset hp ht, hOffset hp' ht']
      linarith
    rw [UInt32.le_iff_toNat_le]
    exact_mod_cast hRat

/-- The other format keeps the times exactly, if the packet is no longer than four seconds. -/
theorem customPoint_time {base : UInt64} {point : PointXyzlt} (hAfter : base ≤ point.offsetTime)
    (hSpan : point.offsetTime.toNat < base.toNat + 2 ^ 32) : base + (customPoint base point).offsetTime.toUInt64 = point.offsetTime := by
  have hNat := UInt64.le_iff_toNat_le.mp hAfter
  have hDifference : (point.offsetTime - base).toNat = point.offsetTime.toNat - base.toNat := UInt64.toNat_sub_of_le _ _ hAfter
  apply UInt64.toNat_inj.mp
  rw [UInt64.toNat_add, UInt32.toNat_toUInt64, customPoint, UInt64.toNat_toUInt32, hDifference,
    Nat.mod_eq_of_lt (show point.offsetTime.toNat - base.toNat < 2 ^ 32 by omega), Nat.add_sub_cancel' hNat,
    Nat.mod_eq_of_lt point.offsetTime.toNat_lt]

end RoveMapping.Livox
