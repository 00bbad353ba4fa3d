import RoveMapping.Livox.LidarDataQueue
import RoveMapping.Slam.PointTimes

/-! # The point cloud messages of the driver

`InitPointcloud2Msg` and `FillPointsToCustomMsg` of `lddc.cpp`, and what the readers of a point cloud make of the first.
-/
namespace RoveMapping.Livox
open Bytes Fallible
set_option autoImplicit false

/-- A `LivoxPointXyzrtlt`, which is packed. -/
def livoxPointBytes (point : PointXyzlt) : List UInt8 :=
  le 4 point.x.toBits.toNat ++ le 4 point.y.toBits.toNat ++ le 4 point.z.toBits.toNat ++ le 4 point.intensity.toBits.toNat ++
    [point.tag, point.line] ++ le 8 point.offsetTime.toFloat.toBits.toNat

/-- `InitPointcloud2MsgHeader`, with `FLOAT32` = 7, `UINT8` = 2 and `FLOAT64` = 8. -/
def pointFields : List Slam.PointField :=
  [⟨"x", 0, 7⟩, ⟨"y", 4, 7⟩, ⟨"z", 8, 7⟩, ⟨"intensity", 12, 7⟩, ⟨"tag", 16, 2⟩, ⟨"line", 17, 2⟩, ⟨"timestamp", 18, 8⟩]

def StoragePacket.timestamp (pkg : StoragePacket) : UInt64 := if pkg.points.isEmpty then 0 else pkg.baseTime

/-- `stamp` is the message of an `rclcpp::Time`: its seconds and nanoseconds. -/
def initPointcloud2Msg (stamp : UInt64 → Int32 × UInt32) (frameId : String) (pkg : StoragePacket) : Slam.StampedCloud where
  sec := (stamp pkg.timestamp).1
  nanosec := (stamp pkg.timestamp).2
  frameId := frameId
  height := 1
  width := UInt32.ofNat pkg.pointsNum
  fields := pointFields
  pointStep := 26
  data := (pkg.points.take pkg.pointsNum).flatMap livoxPointBytes

structure CustomPoint where
  offsetTime : UInt32
  x : Float32
  y : Float32
  z : Float32
  reflectivity : UInt8
  tag : UInt8
  line : UInt8

/-- The fields of a `CustomMsg` that are about the points. -/
structure CustomMsg where
  timebase : UInt64
  points : List CustomPoint

def customPoint (baseTime : UInt64) (point : PointXyzlt) : CustomPoint where
  offsetTime := (point.offsetTime - baseTime).toUInt32
  x := point.x
  y := point.y
  z := point.z
  reflectivity := point.intensity.toUInt8
  tag := point.tag
  line := point.line

def fillPointsToCustomMsg (pkg : StoragePacket) : CustomMsg :=
  ⟨pkg.timestamp, (pkg.points.take pkg.pointsNum).map (customPoint pkg.baseTime)⟩

/-- The floats of a point, as the readers take them. -/
def PointXyzlt.words (point : PointXyzlt) : Slam.Point :=
  ⟨point.x.toBits, point.y.toBits, point.z.toBits, point.intensity.toBits⟩

section Layout

theorem length_livoxPointBytes (point : PointXyzlt) : (livoxPointBytes point).length = 26 := by
  simp [livoxPointBytes]

theorem length_of_mem_livoxPoints {points : List PointXyzlt} : ∀ row ∈ points.map livoxPointBytes, row.length = 26 := by
  intro row hRow
  obtain ⟨point, -, rfl⟩ := List.mem_map.mp hRow
  exact length_livoxPointBytes point

theorem word_le (bits : UInt32) : Slam.word (le 4 bits.toNat) = bits := by
  rw [Slam.word, readLE_le bits.toNat_lt]
  exact UInt32.ofNat_toNat

variable (point : PointXyzlt)

theorem slice_x : slice 0 4 (livoxPointBytes point) = le 4 point.x.toBits.toNat := rfl
theorem slice_y : slice 4 4 (livoxPointBytes point) = le 4 point.y.toBits.toNat := rfl
theorem slice_z : slice 8 4 (livoxPointBytes point) = le 4 point.z.toBits.toNat := rfl
theorem slice_intensity : slice 12 4 (livoxPointBytes point) = le 4 point.intensity.toBits.toNat := rfl

/-- The first four floats of the bytes are those of the point. -/
theorem words_livoxPointBytes : (⟨Slam.word (slice 0 4 (livoxPointBytes point)), Slam.word (slice 4 4 (livoxPointBytes point)),
    Slam.word (slice 8 4 (livoxPointBytes point)), Slam.word (slice 12 4 (livoxPointBytes point))⟩ : Slam.Point) =
      point.words := by
  rw [slice_x, slice_y, slice_z, slice_intensity, word_le, word_le, word_le, word_le]
  rfl

end Layout

section Message

variable (stamp : UInt64 → Int32 × UInt32) (frameId : String) {pkg : StoragePacket} (hWhole : pkg.Whole)
  (hNum : pkg.pointsNum < 2 ^ 32)
include hWhole hNum

theorem count_initPointcloud2Msg : (initPointcloud2Msg stamp frameId pkg).count = pkg.points.length := by
  show (UInt32.ofNat pkg.pointsNum).toNat * 1 = pkg.points.length
  rw [UInt32.toNat_ofNat_of_lt' hNum, hWhole, Nat.mul_one]

omit hNum in
theorem data_initPointcloud2Msg : (initPointcloud2Msg stamp frameId pkg).data = (pkg.points.map livoxPointBytes).flatten := by
  show (pkg.points.take pkg.pointsNum).flatMap livoxPointBytes = _
  rw [List.take_of_length_le hWhole.ge, List.flatMap_def]

theorem rows_initPointcloud2Msg : rows (initPointcloud2Msg stamp frameId pkg).count
    (initPointcloud2Msg stamp frameId pkg).step (initPointcloud2Msg stamp frameId pkg).data =
      pkg.points.map livoxPointBytes := by
  have hRows := rows_flatten (pkg.points.map livoxPointBytes) length_of_mem_livoxPoints
  rw [List.length_map] at hRows
  rw [count_initPointcloud2Msg stamp frameId hWhole hNum, data_initPointcloud2Msg stamp frameId hWhole]
  exact hRows

omit hWhole hNum in
theorem lastField_initPointcloud2Msg :
    Slam.lastField ["x"] (initPointcloud2Msg stamp frameId pkg).fields = some ⟨"x", 0, 7⟩ ∧
    Slam.lastField ["y"] (initPointcloud2Msg stamp frameId pkg).fields = some ⟨"y", 4, 7⟩ ∧
    Slam.lastField ["z"] (initPointcloud2Msg stamp frameId pkg).fields = some ⟨"z", 8, 7⟩ := ⟨rfl, rfl, rfl⟩

theorem framed_initPointcloud2Msg : Slam.Framed (initPointcloud2Msg stamp frameId pkg).toPointCloud2 where
  data_length := by
    have hFlat := length_flatten_of_rows (pkg.points.map livoxPointBytes) length_of_mem_livoxPoints
    rw [data_initPointcloud2Msg stamp frameId hWhole, count_initPointcloud2Msg stamp frameId hWhole hNum, hFlat,
      List.length_map]
    rfl
  inside := by
    intro name hName fd hField
    have hAll : ∀ name ∈ ["x", "y", "z"], ∀ fd, Slam.lastField [name] pointFields = some fd → fd.offset.toNat + 4 ≤ 26 := by
      decide +kernel
    exact hAll name hName fd hField

theorem row_initPointcloud2Msg {i : ℕ} {point : PointXyzlt} (h : pkg.points[i]? = some point) :
    slice (i * 26) 26 (initPointcloud2Msg stamp frameId pkg).data = livoxPointBytes point := by
  have hRows := rows_initPointcloud2Msg stamp frameId hWhole hNum
  have hLt : i < pkg.points.length := (List.getElem?_eq_some_iff.mp h).1
  rw [count_initPointcloud2Msg stamp frameId hWhole hNum, rows_eq_map_range] at hRows
  have hEntry := congrArg (fun rows => rows[i]?) hRows
  simp only [List.getElem?_map, List.getElem?_range hLt, h, Option.map_some, Option.some_inj] at hEntry
  exact hEntry

/-- What the node copies of a point. -/
theorem memcpy_initPointcloud2Msg {i : ℕ} {point : PointXyzlt} (h : pkg.points[i]? = some point) (fd : Slam.PointField)
    (width : ℕ) (hEnd : fd.offset.toNat + width ≤ 26) :
    Slam.memcpy (initPointcloud2Msg stamp frameId pkg).data (i * (initPointcloud2Msg stamp frameId pkg).step) width
      (Slam.offsetInt (some fd)) = some (slice fd.offset.toNat width (livoxPointBytes point)) := by
  have hFramed := framed_initPointcloud2Msg stamp frameId hWhole hNum
  have hi : i < (initPointcloud2Msg stamp frameId pkg).count := by
    rw [count_initPointcloud2Msg stamp frameId hWhole hNum]
    exact (List.getElem?_eq_some_iff.mp h).1
  rw [Slam.memcpy_row hFramed.data_length hi (by omega) hEnd]
  exact congrArg (fun row => some (slice fd.offset.toNat width row)) (row_initPointcloud2Msg stamp frameId hWhole hNum h)

theorem copyTime_initPointcloud2Msg {i : ℕ} {point : PointXyzlt} (h : pkg.points[i]? = some point) :
    Slam.copyTime (initPointcloud2Msg stamp frameId pkg).toPointCloud2 (i * (initPointcloud2Msg stamp frameId pkg).step) =
      some (le 8 point.offsetTime.toFloat.toBits.toNat) :=
  memcpy_initPointcloud2Msg stamp frameId hWhole hNum h ⟨"timestamp", 18, 8⟩ 8 (by decide)

theorem lidarPoint_initPointcloud2Msg {i : ℕ} {point : PointXyzlt} (h : pkg.points[i]? = some point) :
    Slam.lidarPoint (initPointcloud2Msg stamp frameId pkg).toPointCloud2 i = some point.words := by
  have hCopy := memcpy_initPointcloud2Msg stamp frameId hWhole hNum h
  have hX := hCopy ⟨"x", 0, 7⟩ 4 (by decide)
  have hY := hCopy ⟨"y", 4, 7⟩ 4 (by decide)
  have hZ := hCopy ⟨"z", 8, 7⟩ 4 (by decide)
  have hIntensity : Slam.copyIntensity (initPointcloud2Msg stamp frameId pkg).toPointCloud2
      (i * (initPointcloud2Msg stamp frameId pkg).step) = _ := hCopy ⟨"intensity", 12, 7⟩ 4 (by decide)
  have hTime := copyTime_initPointcloud2Msg stamp frameId hWhole hNum h
  rw [Slam.lidarPoint]
  simp only [show Slam.lastField ["x"] (initPointcloud2Msg stamp frameId pkg).fields = some ⟨"x", 0, 7⟩ from rfl,
    show Slam.lastField ["y"] (initPointcloud2Msg stamp frameId pkg).fields = some ⟨"y", 4, 7⟩ from rfl,
    show Slam.lastField ["z"] (initPointcloud2Msg stamp frameId pkg).fields = some ⟨"z", 8, 7⟩ from rfl,
    hX, hY, hZ, hIntensity, hTime, Option.bind_eq_bind, Option.bind_some]
  exact congrArg some (words_livoxPointBytes point)

omit hWhole hNum in
variable (pkg) in
theorem not_coordinateMissing : ¬Slam.CoordinateMissing (initPointcloud2Msg stamp frameId pkg).toPointCloud2 := by
  have hFields : ¬(Slam.offsetInt (some ⟨"x", 0, 7⟩) < 0 ∨ Slam.offsetInt (some ⟨"y", 4, 7⟩) < 0 ∨
      Slam.offsetInt (some ⟨"z", 8, 7⟩) < 0) := by decide
  exact hFields

theorem pc2ToLidarFrame_initPointcloud2Msg :
    Slam.pc2ToLidarFrame (initPointcloud2Msg stamp frameId pkg).toPointCloud2 = some (pkg.points.map PointXyzlt.words) := by
  have hCount := count_initPointcloud2Msg stamp frameId hWhole hNum
  have hComplete := not_coordinateMissing stamp frameId pkg
  unfold Slam.CoordinateMissing at hComplete
  rw [Slam.pc2ToLidarFrame, if_neg hComplete, hCount]
  have hPoints : pkg.points.map PointXyzlt.words =
      (List.range pkg.points.length).map fun i => (pkg.points.map PointXyzlt.words)[i]?.getD ⟨0, 0, 0, 0⟩ := by
    apply List.ext_getElem
    · simp
    · intro i hi hi'
      simp at hi
      simp [hi]
  rw [hPoints]
  apply mapM_eq_some_map
  intro i hi
  have hLt := List.mem_range.mp hi
  rw [lidarPoint_initPointcloud2Msg stamp frameId hWhole hNum (List.getElem?_eq_getElem hLt)]
  simp [hLt]

theorem pc2ToXyzi_initPointcloud2Msg :
    Slam.pc2ToXyzi (initPointcloud2Msg stamp frameId pkg).toPointCloud2 = some (pkg.points.map PointXyzlt.words) := by
  obtain ⟨hX, hY, hZ⟩ := @lastField_initPointcloud2Msg stamp frameId pkg
  have hFramed := framed_initPointcloud2Msg stamp frameId hWhole hNum
  have hRows := rows_initPointcloud2Msg stamp frameId hWhole hNum
  rcases Nat.eq_zero_or_pos (initPointcloud2Msg stamp frameId pkg).count with hCount | hCount
  · have hNil : pkg.points = [] := by
      rw [count_initPointcloud2Msg stamp frameId hWhole hNum] at hCount
      exact List.eq_nil_of_length_eq_zero hCount
    rw [(Slam.empty_of_count hCount).2.1, hNil]
    rfl
  · have hWidth := length_of_mem_rows hFramed.data_length
    have hIntensity : Slam.lastField ["intensity"] (initPointcloud2Msg stamp frameId pkg).fields =
        some ⟨"intensity", 12, 7⟩ := rfl
    rw [Slam.pc2ToXyzi_complete hX hY hZ hFramed hCount.ne',
      hIntensity]
    have hColumn := Slam.column_eq hWidth (show 12 + 4 ≤ 26 by decide)
    rw [hRows] at hColumn ⊢
    show (Slam.column (pkg.points.map livoxPointBytes) 12).bind _ = _
    rw [hColumn, Option.bind_some, Slam.setColumn_map, List.map_map]
    refine congrArg some (List.map_congr_left fun point _ => ?_)
    rw [← words_livoxPointBytes]
    rfl

theorem pc2ToXyz_initPointcloud2Msg : Slam.pc2ToXyz (initPointcloud2Msg stamp frameId pkg).toPointCloud2 =
    some (pkg.points.map fun point => point.words.xyz) := by
  obtain ⟨hX, hY, hZ⟩ := @lastField_initPointcloud2Msg stamp frameId pkg
  have hFramed := framed_initPointcloud2Msg stamp frameId hWhole hNum
  rcases Nat.eq_zero_or_pos (initPointcloud2Msg stamp frameId pkg).count with hCount | hCount
  · have hNil : pkg.points = [] := by
      rw [count_initPointcloud2Msg stamp frameId hWhole hNum] at hCount
      exact List.eq_nil_of_length_eq_zero hCount
    rw [(Slam.empty_of_count hCount).1, hNil]
    rfl
  · rw [Slam.pc2ToXyz_complete hX hY hZ hFramed hCount.ne',
      Slam.decoded, rows_initPointcloud2Msg stamp frameId hWhole hNum, List.map_map]
    refine congrArg some (List.map_congr_left fun point _ => ?_)
    rw [← words_livoxPointBytes]
    rfl

end Message
end RoveMapping.Livox
