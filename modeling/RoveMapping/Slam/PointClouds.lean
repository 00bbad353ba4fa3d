import RoveMapping.Library.Bytes
import RoveMapping.Library.Fallible
import Mathlib.Tactic.IntervalCases

/-! # Point clouds of the lidar

`_pc2_to_xyz` of the live viewer, `_pc2_to_xyzi` of the mesh builder and `pc2ToLidarFrame` of the
SLAM node: three readers of one `sensor_msgs/PointCloud2`.
-/
namespace RoveMapping.Slam
open Bytes Fallible
set_option autoImplicit false

structure PointField where
  name : String
  offset : UInt32
  datatype : UInt8
deriving DecidableEq

structure PointCloud2 where
  height : UInt32
  width : UInt32
  fields : List PointField
  pointStep : UInt32
  data : List UInt8

namespace PointCloud2

def count (msg : PointCloud2) : ℕ := msg.width.toNat * msg.height.toNat
def step (msg : PointCloud2) : ℕ := msg.pointStep.toNat

end PointCloud2

/-- The `if`/`elif` chains over `msg.fields` overwrite what an earlier field of the name has set. -/
def lastField (names : List String) (fields : List PointField) : Option PointField :=
  fields.foldl (fun found fd => if fd.name ∈ names then some fd else found) none

/-- The bits of a `float32`. -/
abbrev Word := UInt32

def word (bytes : List UInt8) : Word := UInt32.ofNat (readLE bytes)

/-- A row of four `float32`: of the mesh builder's array, or a point of the node's frame. -/
structure Point where
  x : Word
  y : Word
  z : Word
  intensity : Word
deriving DecidableEq

/-- The value of a `float32`. A NaN keeps its payload in a copy of the bits, but not on the way
through a `float` of Python. -/
inductive Coordinate where
  | nan
  | bits (word : Word)
deriving DecidableEq

def coordinate (w : Word) : Coordinate := if 0x7f800000 < (w &&& 0x7fffffff) then .nan else .bits w

structure Xyz where
  x : Coordinate
  y : Coordinate
  z : Coordinate
deriving DecidableEq

def Point.xyz (point : Point) : Xyz := ⟨coordinate point.x, coordinate point.y, coordinate point.z⟩

/-- `np.frombuffer(bytes, dtype=np.float32)` -/
def frombufferFloat32 (bytes : List UInt8) : Option (List Word) :=
  if bytes.length % 4 = 0 then some ((rows (bytes.length / 4) 4 bytes).map word) else none

/-! ## `rerun_live.py` -/

def xyzOfRow : List Word → Option Xyz
  | [x, y, z] => some ⟨coordinate x, coordinate y, coordinate z⟩
  | _ => none

/-- The vectorized decode of the dense layout. -/
def vectorized (msg : PointCloud2) : Option (List Xyz) := do
  let arr ← reshape msg.count msg.step msg.data
  let floats ← frombufferFloat32 (arr.map (slice 0 12)).flatten
  let out ← reshape msg.count 3 floats
  out.mapM xyzOfRow

/-- `struct.unpack_from("<f", raw, pos)[0]` -/
def unpackFloat (raw : List UInt8) (pos : ℕ) : Option Coordinate :=
  (slice? pos 4 raw).map fun bytes => coordinate (word bytes)

def fallback (msg : PointCloud2) (offX offY offZ : ℕ) : Option (List Xyz) :=
  (List.range msg.count).mapM fun i => do
    let base := i * msg.step
    let x ← unpackFloat msg.data (base + offX)
    let y ← unpackFloat msg.data (base + offY)
    let z ← unpackFloat msg.data (base + offZ)
    return ⟨x, y, z⟩

/-- The guard of the vectorized decode. -/
def Dense (msg : PointCloud2) (offX offY offZ : ℕ) : Prop := offX = 0 ∧ offY = 4 ∧ offZ = 8 ∧ 12 ≤ msg.step

instance (msg : PointCloud2) (offX offY offZ : ℕ) : Decidable (Dense msg offX offY offZ) :=
  inferInstanceAs (Decidable (_ ∧ _))

/-- `_pc2_to_xyz`; `none` is an exception. -/
def pc2ToXyz (msg : PointCloud2) : Option (List Xyz) :=
  match lastField ["x"] msg.fields, lastField ["y"] msg.fields, lastField ["z"] msg.fields with
  | some fx, some fy, some fz =>
    let offX := fx.offset.toNat
    let offY := fy.offset.toNat
    let offZ := fz.offset.toNat
    if msg.count = 0 then some []
    else if Dense msg offX offY offZ then vectorized msg
    else fallback msg offX offY offZ
  | _, _, _ => some []

/-! ## `mesh_builder.py` -/

/-- `out[:, k] = column`: as many floats as rows, or one that is broadcast. -/
def setColumn (set : Point → Word → Point) (out : List Point) (column : List Word) : Option (List Point) :=
  if column.length = out.length then some (List.zipWith set out column)
  else match column with
    | [w] => some (out.map fun point => set point w)
    | _ => none

/-- `np.frombuffer(raw[:, off:off + 4].tobytes(), dtype=np.float32)`; the slice ends at the row's end. -/
def column (raw : List (List UInt8)) (off : ℕ) : Option (List Word) :=
  frombufferFloat32 (raw.map (slice off 4)).flatten

/-- `_pc2_to_xyzi`; `none` is an exception. -/
def pc2ToXyzi (msg : PointCloud2) : Option (List Point) :=
  match lastField ["x"] msg.fields, lastField ["y"] msg.fields, lastField ["z"] msg.fields with
  | some fx, some fy, some fz =>
    if msg.count = 0 then some []
    else do
      let raw ← reshape msg.count msg.step msg.data
      let out := List.replicate msg.count (⟨0, 0, 0, 0⟩ : Point)
      let out ← setColumn (fun point w => { point with x := w }) out (← column raw fx.offset.toNat)
      let out ← setColumn (fun point w => { point with y := w }) out (← column raw fy.offset.toNat)
      let out ← setColumn (fun point w => { point with z := w }) out (← column raw fz.offset.toNat)
      match lastField ["intensity"] msg.fields with
      | some fi => setColumn (fun point w => { point with intensity := w }) out (← column raw fi.offset.toNat)
      | none => return out
  | _, _, _ => some []

/-! ## `rove_slam_node.cpp` -/

/-- `int off = fd.offset`, and −1 where no field has the name. -/
def offsetInt : Option PointField → ℤ
  | some fd => fd.offset.toInt32.toInt
  | none => -1

/-- `std::memcpy(_, p + off, len)`; a copy from behind the end of `msg.data` is undefined. -/
def memcpy (data : List UInt8) (p len : ℕ) (off : ℤ) : Option (List UInt8) := slice? (p + off.toNat) len data

def timeNames : List String := ["timestamp", "time", "t", "offset_time"]

/-- The bytes that are copied of a per-point time: `FLOAT64`, `FLOAT32` and `UINT32` are read. -/
def timeWidth (datatype : UInt8) : Option ℕ :=
  if datatype = 8 then some 8
  else if datatype = 7 then some 4
  else if datatype = 6 then some 4
  else none

/-- `pt.intensity`, which is zero where the copy is not made. -/
def copyIntensity (msg : PointCloud2) (p : ℕ) : Option (List UInt8) :=
  let offI := offsetInt (lastField ["intensity"] msg.fields)
  if 0 ≤ offI then memcpy msg.data p 4 offI else some [0, 0, 0, 0]

/-- The copy of a point's time. What is computed of it touches no coordinate. -/
def copyTime (msg : PointCloud2) (p : ℕ) : Option (List UInt8) :=
  match lastField timeNames msg.fields with
  | some ft =>
    match timeWidth ft.datatype with
    | some width => if 0 ≤ offsetInt (some ft) then memcpy msg.data p width (offsetInt (some ft)) else some []
    | none => some []
  | none => some []

def lidarPoint (msg : PointCloud2) (i : ℕ) : Option Point := do
  let p := i * msg.step
  let x ← memcpy msg.data p 4 (offsetInt (lastField ["x"] msg.fields))
  let y ← memcpy msg.data p 4 (offsetInt (lastField ["y"] msg.fields))
  let z ← memcpy msg.data p 4 (offsetInt (lastField ["z"] msg.fields))
  let intensity ← copyIntensity msg p
  let _ ← copyTime msg p
  return ⟨word x, word y, word z, word intensity⟩

/-- The points of `pc2ToLidarFrame`; `none` is undefined behaviour. -/
def pc2ToLidarFrame (msg : PointCloud2) : Option (List Point) :=
  if offsetInt (lastField ["x"] msg.fields) < 0 ∨ offsetInt (lastField ["y"] msg.fields) < 0 ∨
      offsetInt (lastField ["z"] msg.fields) < 0 then some []
  else (List.range msg.count).mapM (lidarPoint msg)


/-! ## The layout that all of them read -/

def rowXyz (offX offY offZ : ℕ) (row : List UInt8) : Xyz :=
  ⟨coordinate (word (slice offX 4 row)), coordinate (word (slice offY 4 row)), coordinate (word (slice offZ 4 row))⟩

/-- Point `i` of the message is row `i` of its data. -/
def decoded (msg : PointCloud2) (offX offY offZ : ℕ) : List Xyz :=
  (rows msg.count msg.step msg.data).map (rowXyz offX offY offZ)

theorem frombufferFloat32_flatten (parts : List (List UInt8)) (h : ∀ part ∈ parts, part.length = 4) :
    frombufferFloat32 parts.flatten = some (parts.map word) := by
  have hLength := length_flatten_of_rows parts h
  have hCount : parts.flatten.length / 4 = parts.length := by omega
  rw [frombufferFloat32, if_pos (by omega), hCount, rows_flatten parts h]

/-- Parts of `count` floats each are read one after the other. -/
theorem frombufferFloat32_rows {count : ℕ} (parts : List (List UInt8)) (h : ∀ part ∈ parts, part.length = count * 4) :
    frombufferFloat32 parts.flatten = some (parts.map fun part => (rows count 4 part).map word).flatten := by
  have hFloats : ∀ float ∈ (parts.map (rows count 4)).flatten, float.length = 4 := by
    intro float hFloat
    obtain ⟨part, hPart, hFloat⟩ := List.mem_flatMap.mp (List.flatMap_def ▸ hFloat)
    exact length_of_mem_rows (h part hPart) float hFloat
  have hFlat : (parts.map (rows count 4)).flatten.flatten = parts.flatten := by
    rw [List.flatten_flatten, List.map_map]
    congr 1
    conv_rhs => rw [← List.map_id parts]
    apply List.map_congr_left
    intro part hPart
    exact flatten_rows (h part hPart)
  rw [← hFlat, frombufferFloat32_flatten _ hFloats, List.map_flatten, List.map_map]
  rfl

section Layout
variable {msg : PointCloud2} (hData : msg.data.length = msg.count * msg.step)
include hData

theorem row_end {i off len : ℕ} (hi : i < msg.count) (hOff : off + len ≤ msg.step) :
    i * msg.step + off + len ≤ msg.data.length := by
  have hRow : (i + 1) * msg.step ≤ msg.count * msg.step := Nat.mul_le_mul_right _ hi
  rw [Nat.succ_mul] at hRow
  omega

theorem unpackFloat_row {i off : ℕ} (hi : i < msg.count) (hOff : off + 4 ≤ msg.step) :
    unpackFloat msg.data (i * msg.step + off) =
      some (coordinate (word (slice off 4 (slice (i * msg.step) msg.step msg.data)))) := by
  rw [unpackFloat, slice?_of_le (row_end hData hi hOff), slice_slice msg.data hOff]
  rfl

theorem fallback_eq {offX offY offZ : ℕ} (hX : offX + 4 ≤ msg.step) (hY : offY + 4 ≤ msg.step)
    (hZ : offZ + 4 ≤ msg.step) : fallback msg offX offY offZ = some (decoded msg offX offY offZ) := by
  rw [decoded, rows_eq_map_range, List.map_map]
  apply mapM_eq_some_map
  intro i hi
  have hi : i < msg.count := List.mem_range.mp hi
  simp only [unpackFloat_row hData hi hX, unpackFloat_row hData hi hY, unpackFloat_row hData hi hZ]
  rfl

theorem vectorized_eq (hStep : 12 ≤ msg.step) : vectorized msg = some (decoded msg 0 4 8) := by
  have hRows := length_of_mem_rows hData
  have hParts : ∀ part ∈ (rows msg.count msg.step msg.data).map (slice 0 12), part.length = 3 * 4 := by
    intro part hPart
    obtain ⟨row, hRow, rfl⟩ := List.mem_map.mp hPart
    have hLength := hRows row hRow
    rw [length_slice]
    omega
  have hFloats := frombufferFloat32_rows _ hParts
  have hWidth : ∀ triple ∈ ((rows msg.count msg.step msg.data).map (slice 0 12)).map fun part =>
      (rows 3 4 part).map word, triple.length = 3 := by simp
  have hShape := reshape_flatten _ hWidth
  rw [List.length_map, List.length_map, length_rows] at hShape
  rw [vectorized, reshape, if_pos hData]
  simp only [Option.bind_eq_bind, Option.bind_some, hFloats, hShape, List.mapM_map]
  apply mapM_eq_some_map
  intro row hRow
  have hSlice (off : ℕ) (hOff : off + 4 ≤ 12) : slice off 4 (slice 0 12 row) = slice off 4 row := by
    rw [slice_slice row hOff, Nat.zero_add]
  simp [rows_eq_map_range, List.range_succ, xyzOfRow, rowXyz, hSlice]

end Layout

/-! ## Columns of the mesh builder -/

def rowPoint (offX offY offZ : ℕ) (row : List UInt8) : Point :=
  ⟨word (slice offX 4 row), word (slice offY 4 row), word (slice offZ 4 row), 0⟩

abbrev setIntensity (point : Point) (w : Word) : Point := { point with intensity := w }

theorem setColumn_map {α : Type} (set : Point → Word → Point) (raw : List α) (f : α → Point) (g : α → Word) :
    setColumn set (raw.map f) (raw.map g) = some (raw.map fun row => set (f row) (g row)) := by
  unfold setColumn
  rw [if_pos (by simp), List.zipWith_map, List.zipWith_self]

theorem column_eq {raw : List (List UInt8)} {step off : ℕ} (hRaw : ∀ row ∈ raw, row.length = step)
    (hOff : off + 4 ≤ step) : column raw off = some (raw.map fun row => word (slice off 4 row)) := by
  have hParts : ∀ part ∈ raw.map (slice off 4), part.length = 4 := by
    intro part hPart
    obtain ⟨row, hRow, rfl⟩ := List.mem_map.mp hPart
    have hLength := hRaw row hRow
    rw [length_slice]
    omega
  rw [column, frombufferFloat32_flatten _ hParts, List.map_map]
  rfl

theorem setIntensity_xyz {out result : List Point} {ws : List Word} (h : setColumn setIntensity out ws = some result) :
    result.map Point.xyz = out.map Point.xyz := by
  unfold setColumn at h
  split at h
  · rename_i hLength
    obtain rfl := Option.some.inj h
    clear h
    induction out generalizing ws with
    | nil => simp
    | cons point out ih =>
      cases ws with
      | nil => cases hLength
      | cons w ws => simpa [Point.xyz] using ih (by simpa using hLength)
  · split at h
    · obtain rfl := Option.some.inj h
      simp [Function.comp_def, Point.xyz]
    · cases h

theorem setColumn_isSome {set : Point → Word → Point} {out : List Point} {ws : List Word} :
    (setColumn set out ws).isSome ↔ ws.length = out.length ∨ ws.length = 1 := by
  unfold setColumn
  split
  · rename_i hLength
    simp [hLength]
  · rename_i hLength
    match ws with
    | [] => simpa using hLength
    | [w] => simp
    | w :: v :: ws => simpa using hLength

/-- The column is as long as the array, or it is one float that is broadcast. -/
theorem intensity_isSome {raw : List (List UInt8)} {step : ℕ} (off : ℕ) (out : List Point)
    (hRaw : ∀ row ∈ raw, row.length = step) (hOut : out.length = raw.length) (hPos : 0 < raw.length) :
    ((column raw off).bind (setColumn setIntensity out)).isSome ↔ off + 4 ≤ step ∨ raw.length * (step - off) = 4 := by
  have hParts : ∀ part ∈ raw.map (slice off 4), part.length = min 4 (step - off) := by
    intro part hPart
    obtain ⟨row, hRow, rfl⟩ := List.mem_map.mp hPart
    rw [length_slice, hRaw row hRow]
  have hLength := length_flatten_of_rows _ hParts
  rw [List.length_map] at hLength
  have hFloats : ((column raw off).bind (setColumn setIntensity out)).isSome ↔
      raw.length * min 4 (step - off) % 4 = 0 ∧
        (raw.length * min 4 (step - off) / 4 = raw.length ∨ raw.length * min 4 (step - off) / 4 = 1) := by
    rw [column, frombufferFloat32, hLength]
    split
    · rename_i hMod
      rw [Option.bind_some, setColumn_isSome, List.length_map, length_rows, hOut]
      simp [hMod]
    · rename_i hMod
      simp [hMod]
  rw [hFloats]
  rcases Nat.lt_or_ge (step - off) 4 with hShort | hLong
  · have hMin : min 4 (step - off) = step - off := by omega
    have hOff : ¬ off + 4 ≤ step := by omega
    rw [hMin]
    generalize step - off = width at hShort
    interval_cases width <;> omega
  · have hMin : min 4 (step - off) = 4 := by omega
    rw [hMin]
    omega

/-! ## Copies of the node -/

theorem offsetInt_eq (fd : PointField) : offsetInt (some fd) = (fd.offset.toNat : ℤ).bmod (2 ^ 32) :=
  BitVec.toInt_eq_toNat_bmod _

theorem offsetInt_nonneg (fd : PointField) : 0 ≤ offsetInt (some fd) ↔ fd.offset.toNat < 2 ^ 31 := by
  have hLt : fd.offset.toNat < 2 ^ 32 := fd.offset.toNat_lt
  rw [offsetInt_eq, Int.bmod_def]
  split <;> omega

theorem offsetInt_toNat {fd : PointField} (h : fd.offset.toNat < 2 ^ 31) :
    (offsetInt (some fd)).toNat = fd.offset.toNat := by
  rw [offsetInt_eq, Int.bmod_def]
  split <;> omega

/-- A field that the node takes as set, of `width` bytes, ends inside the point. -/
def Inside (msg : PointCloud2) (fd : PointField) (width : ℕ) : Prop :=
  fd.offset.toNat < 2 ^ 31 → fd.offset.toNat + width ≤ msg.step

section Copies
variable {msg : PointCloud2} (hData : msg.data.length = msg.count * msg.step)
include hData

theorem memcpy_row {fd : PointField} {i width : ℕ} (hi : i < msg.count) (hOff : fd.offset.toNat < 2 ^ 31)
    (hEnd : fd.offset.toNat + width ≤ msg.step) :
    memcpy msg.data (i * msg.step) width (offsetInt (some fd)) =
      some (slice fd.offset.toNat width (slice (i * msg.step) msg.step msg.data)) := by
  rw [memcpy, offsetInt_toNat hOff, slice?_of_le (row_end hData hi hEnd), slice_slice msg.data hEnd]

theorem memcpy_isSome {fd : PointField} {i width : ℕ} (hi : i < msg.count) (h : Inside msg fd width)
    (hSet : 0 ≤ offsetInt (some fd)) : (memcpy msg.data (i * msg.step) width (offsetInt (some fd))).isSome := by
  have hOff := (offsetInt_nonneg fd).mp hSet
  rw [memcpy_row hData hi hOff (h hOff)]
  rfl

/-- The copies of the last point are the ones that could leave the data. -/
theorem inside_of_memcpy {fd : PointField} {i width : ℕ} (hLast : i + 1 = msg.count)
    (h : 0 ≤ offsetInt (some fd) → (memcpy msg.data (i * msg.step) width (offsetInt (some fd))).isSome) :
    Inside msg fd width := by
  intro hOff
  have hCopied := h ((offsetInt_nonneg fd).mpr hOff)
  rw [memcpy, offsetInt_toNat hOff, slice?_isSome, hData, ← hLast, Nat.succ_mul] at hCopied
  omega

theorem copyIntensity_isSome {i : ℕ} (hi : i < msg.count)
    (h : ∀ fd, lastField ["intensity"] msg.fields = some fd → Inside msg fd 4) :
    (copyIntensity msg (i * msg.step)).isSome := by
  unfold copyIntensity
  cases hField : lastField ["intensity"] msg.fields with
  | none => rfl
  | some fd =>
    dsimp only
    split
    · rename_i hSet
      exact memcpy_isSome hData hi (h fd hField) hSet
    · rfl

theorem inside_of_copyIntensity {i : ℕ} (hLast : i + 1 = msg.count) (h : (copyIntensity msg (i * msg.step)).isSome)
    (fd : PointField) (hField : lastField ["intensity"] msg.fields = some fd) : Inside msg fd 4 := by
  apply inside_of_memcpy hData hLast
  intro hOff
  simpa [copyIntensity, hField, hOff] using h

theorem copyTime_isSome {i : ℕ} (hi : i < msg.count)
    (h : ∀ fd width, lastField timeNames msg.fields = some fd → timeWidth fd.datatype = some width →
      Inside msg fd width) : (copyTime msg (i * msg.step)).isSome := by
  unfold copyTime
  cases hField : lastField timeNames msg.fields with
  | none => rfl
  | some fd =>
    dsimp only
    split
    · rename_i width hWidth
      split
      · rename_i hSet
        exact memcpy_isSome hData hi (h fd width hField hWidth) hSet
      · rfl
    · rfl

theorem inside_of_copyTime {i : ℕ} (hLast : i + 1 = msg.count) (h : (copyTime msg (i * msg.step)).isSome)
    (fd : PointField) (width : ℕ) (hField : lastField timeNames msg.fields = some fd)
    (hWidth : timeWidth fd.datatype = some width) : Inside msg fd width := by
  apply inside_of_memcpy hData hLast
  intro hOff
  simpa [copyTime, hField, hWidth, hOff] using h

end Copies

/-! ## Agreement -/

def Complete (msg : PointCloud2) : Prop :=
  ∀ name ∈ ["x", "y", "z"], (lastField [name] msg.fields).isSome

/-- x, y and z end inside the point, and the data is that of all points. -/
structure Framed (msg : PointCloud2) : Prop where
  data_length : msg.data.length = msg.count * msg.step
  inside : ∀ name ∈ ["x", "y", "z"], ∀ fd, lastField [name] msg.fields = some fd → fd.offset.toNat + 4 ≤ msg.step

/-- The intensity column can be read: it lies inside the point, or it is four bytes in all. -/
def IntensityReadable (msg : PointCloud2) : Prop :=
  ∀ fd, lastField ["intensity"] msg.fields = some fd →
    fd.offset.toNat + 4 ≤ msg.step ∨ msg.count * (msg.step - fd.offset.toNat) = 4

/-- The node takes x, y and z as set, and copies nothing from behind a point. -/
structure NodeReadable (msg : PointCloud2) : Prop where
  xyz : ∀ name ∈ ["x", "y", "z"], ∀ fd, lastField [name] msg.fields = some fd → fd.offset.toNat < 2 ^ 31
  intensity : ∀ fd, lastField ["intensity"] msg.fields = some fd → Inside msg fd 4
  time : ∀ fd width, lastField timeNames msg.fields = some fd → timeWidth fd.datatype = some width →
    Inside msg fd width

section Agreement
variable {msg : PointCloud2} {fx fy fz : PointField}

theorem vectorized_eq_fallback (h : Framed msg) {offX offY offZ : ℕ} (hDense : Dense msg offX offY offZ) :
    vectorized msg = fallback msg offX offY offZ := by
  obtain ⟨rfl, rfl, rfl, hStep⟩ := hDense
  rw [vectorized_eq h.data_length hStep,
    fallback_eq h.data_length (by omega) (by omega) (by omega)]

theorem rowPoint_decoded (offX offY offZ : ℕ) :
    ((rows msg.count msg.step msg.data).map (rowPoint offX offY offZ)).map Point.xyz = decoded msg offX offY offZ := by
  rw [List.map_map]
  rfl

theorem pc2ToXyz_incomplete (h : ¬ Complete msg) :
    pc2ToXyz msg = some [] ∧ pc2ToXyzi msg = some [] ∧ pc2ToLidarFrame msg = some [] := by
  unfold pc2ToXyz pc2ToXyzi pc2ToLidarFrame
  cases hX : lastField ["x"] msg.fields with
  | none => simp [offsetInt]
  | some fx =>
    cases hY : lastField ["y"] msg.fields with
    | none => simp [offsetInt]
    | some fy =>
      cases hZ : lastField ["z"] msg.fields with
      | none => simp [offsetInt]
      | some fz => exact absurd (by simp [Complete, hX, hY, hZ]) h

theorem empty_of_count (h : msg.count = 0) :
    pc2ToXyz msg = some [] ∧ pc2ToXyzi msg = some [] ∧ pc2ToLidarFrame msg = some [] := by
  unfold pc2ToXyz pc2ToXyzi pc2ToLidarFrame
  refine ⟨?_, ?_, ?_⟩
  · split <;> simp [h]
  · split <;> simp [h]
  · split <;> simp [h]

section Complete
variable (hX : lastField ["x"] msg.fields = some fx) (hY : lastField ["y"] msg.fields = some fy)
  (hZ : lastField ["z"] msg.fields = some fz)
include hX hY hZ

theorem pc2ToXyz_complete (h : Framed msg) (hCount : msg.count ≠ 0) :
    pc2ToXyz msg = some (decoded msg fx.offset.toNat fy.offset.toNat fz.offset.toNat) := by
  have hFallback := fallback_eq h.data_length (h.inside "x" (by simp) fx hX) (h.inside "y" (by simp) fy hY)
    (h.inside "z" (by simp) fz hZ)
  unfold pc2ToXyz
  rw [hX, hY, hZ]
  simp only [if_neg hCount]
  split
  · rename_i hDense
    rw [vectorized_eq_fallback h hDense, hFallback]
  · exact hFallback

theorem pc2ToXyzi_complete (h : Framed msg) (hCount : msg.count ≠ 0) :
    pc2ToXyzi msg =
      match lastField ["intensity"] msg.fields with
      | some fi => (column (rows msg.count msg.step msg.data) fi.offset.toNat).bind
          (setColumn setIntensity ((rows msg.count msg.step msg.data).map
            (rowPoint fx.offset.toNat fy.offset.toNat fz.offset.toNat)))
      | none => some ((rows msg.count msg.step msg.data).map
          (rowPoint fx.offset.toNat fy.offset.toNat fz.offset.toNat)) := by
  have hRaw := length_of_mem_rows h.data_length
  have hZero : List.replicate msg.count (⟨0, 0, 0, 0⟩ : Point) =
      (rows msg.count msg.step msg.data).map fun _ => ⟨0, 0, 0, 0⟩ := by
    rw [List.map_const', length_rows]
  unfold pc2ToXyzi
  rw [hX, hY, hZ]
  simp only [if_neg hCount, reshape, if_pos h.data_length, Option.bind_eq_bind, Option.bind_some, hZero,
    column_eq hRaw (h.inside "x" (by simp) fx hX), column_eq hRaw (h.inside "y" (by simp) fy hY),
    column_eq hRaw (h.inside "z" (by simp) fz hZ), setColumn_map]
  rfl

end Complete

section Complete
variable (hX : lastField ["x"] msg.fields = some fx) (hY : lastField ["y"] msg.fields = some fy)
  (hZ : lastField ["z"] msg.fields = some fz)
include hX hY hZ

theorem pc2ToXyzi_agrees_iff (h : Framed msg) (hCount : msg.count ≠ 0) :
    (pc2ToXyzi msg).map (List.map Point.xyz) = pc2ToXyz msg ↔ IntensityReadable msg := by
  have hRaw := length_of_mem_rows h.data_length
  rw [pc2ToXyz_complete hX hY hZ h hCount, pc2ToXyzi_complete hX hY hZ h hCount, IntensityReadable]
  cases hField : lastField ["intensity"] msg.fields with
  | none => simp only [Option.map_some, rowPoint_decoded, reduceCtorEq, false_implies, implies_true]
  | some fi =>
    have hReads := intensity_isSome fi.offset.toNat ((rows msg.count msg.step msg.data).map
      (rowPoint fx.offset.toNat fy.offset.toNat fz.offset.toNat)) hRaw (by simp) (by simpa using Nat.pos_of_ne_zero hCount)
    rw [length_rows] at hReads
    simp only [Option.some.injEq, forall_eq']
    rw [← hReads]
    constructor
    · intro hAgree
      obtain ⟨out, hOut, -⟩ := Option.map_eq_some_iff.mp hAgree
      rw [hOut]
      rfl
    · intro hSome
      obtain ⟨out, hOut⟩ := Option.isSome_iff_exists.mp hSome
      obtain ⟨ws, hColumn, hSet⟩ := Option.bind_eq_some_iff.mp hOut
      rw [hOut, Option.map_some, setIntensity_xyz hSet, rowPoint_decoded]

theorem lidarPoint_eq (h : Framed msg) (hReads : NodeReadable msg) {i : ℕ} (hi : i < msg.count) :
    ∃ point, lidarPoint msg i = some point ∧ point.xyz =
      rowXyz fx.offset.toNat fy.offset.toNat fz.offset.toNat (slice (i * msg.step) msg.step msg.data) := by
  obtain ⟨intensity, hIntensity⟩ := Option.isSome_iff_exists.mp
    (copyIntensity_isSome h.data_length hi hReads.intensity)
  obtain ⟨time, hTime⟩ := Option.isSome_iff_exists.mp (copyTime_isSome h.data_length hi hReads.time)
  have hCopyX := memcpy_row h.data_length hi (hReads.xyz "x" (by simp) fx hX) (h.inside "x" (by simp) fx hX)
  have hCopyY := memcpy_row h.data_length hi (hReads.xyz "y" (by simp) fy hY) (h.inside "y" (by simp) fy hY)
  have hCopyZ := memcpy_row h.data_length hi (hReads.xyz "z" (by simp) fz hZ) (h.inside "z" (by simp) fz hZ)
  unfold lidarPoint
  rw [hX, hY, hZ]
  simp only [hCopyX, hCopyY, hCopyZ, hIntensity, hTime]
  exact ⟨_, rfl, rfl⟩

omit hX hY hZ in
/-- Where the copies of all points succeed, those of the last point do. -/
theorem nodeReadable_of_points (h : Framed msg) (hCount : msg.count ≠ 0)
    (hXyz : ∀ name ∈ ["x", "y", "z"], ∀ fd, lastField [name] msg.fields = some fd → fd.offset.toNat < 2 ^ 31)
    {points : List Point} (hPoints : (List.range msg.count).mapM (lidarPoint msg) = some points) : NodeReadable msg := by
  have hLast : msg.count - 1 + 1 = msg.count := by omega
  obtain ⟨point, hPoint⟩ := exists_of_mapM hPoints (List.mem_range.mpr (show msg.count - 1 < msg.count by omega))
  unfold lidarPoint at hPoint
  obtain ⟨x, -, hPoint⟩ := Option.bind_eq_some_iff.mp hPoint
  obtain ⟨y, -, hPoint⟩ := Option.bind_eq_some_iff.mp hPoint
  obtain ⟨z, -, hPoint⟩ := Option.bind_eq_some_iff.mp hPoint
  obtain ⟨intensity, hIntensity, hPoint⟩ := Option.bind_eq_some_iff.mp hPoint
  obtain ⟨time, hTime, -⟩ := Option.bind_eq_some_iff.mp hPoint
  constructor
  · exact hXyz
  · exact inside_of_copyIntensity h.data_length hLast (Option.isSome_iff_exists.mpr ⟨intensity, hIntensity⟩)
  · exact inside_of_copyTime h.data_length hLast (Option.isSome_iff_exists.mpr ⟨time, hTime⟩)

theorem pc2ToLidarFrame_agrees_iff (h : Framed msg) (hCount : msg.count ≠ 0) :
    (pc2ToLidarFrame msg).map (List.map Point.xyz) = pc2ToXyz msg ↔ NodeReadable msg := by
  have hSigned : (offsetInt (lastField ["x"] msg.fields) < 0 ∨ offsetInt (lastField ["y"] msg.fields) < 0 ∨
      offsetInt (lastField ["z"] msg.fields) < 0) ↔ ¬ ∀ name ∈ ["x", "y", "z"], ∀ fd,
        lastField [name] msg.fields = some fd → fd.offset.toNat < 2 ^ 31 := by
    have hX' := offsetInt_nonneg fx
    have hY' := offsetInt_nonneg fy
    have hZ' := offsetInt_nonneg fz
    simp only [List.forall_mem_cons, List.not_mem_nil, hX, hY, hZ, Option.some.injEq, forall_eq']
    simp only [← hX', ← hY', ← hZ', false_implies, implies_true, and_true]
    omega
  rw [pc2ToXyz_complete hX hY hZ h hCount, pc2ToLidarFrame]
  split
  · rename_i hNegative
    constructor
    · intro hAgree
      have hLength := congrArg List.length (Option.some.inj hAgree)
      simp only [decoded, List.map_nil, List.length_nil, List.length_map, length_rows] at hLength
      omega
    · intro hReads
      exact absurd hReads.xyz (hSigned.mp hNegative)
  · rename_i hNegative
    constructor
    · intro hAgree
      obtain ⟨points, hPoints, -⟩ := Option.map_eq_some_iff.mp hAgree
      exact nodeReadable_of_points h hCount (not_not.mp (mt hSigned.mpr hNegative)) hPoints
    · intro hReads
      obtain ⟨points, hPoints, hView⟩ := mapM_of_forall (List.range msg.count)
        fun i hi => lidarPoint_eq hX hY hZ h hReads (List.mem_range.mp hi)
      rw [hPoints, Option.map_some, hView, decoded, rows_eq_map_range, List.map_map]
      rfl

end Complete

end Agreement

/-- The two paths of the viewer never differ. The mesh builder and the node differ from them exactly where
a field other than x, y and z is laid out behind the point, or where an offset does not fit an `int`. -/
theorem decoders_agree (msg : PointCloud2) (h : Framed msg) :
    (pc2ToXyz msg).isSome ∧
    (∀ fx fy fz, lastField ["x"] msg.fields = some fx → lastField ["y"] msg.fields = some fy →
      lastField ["z"] msg.fields = some fz → Dense msg fx.offset.toNat fy.offset.toNat fz.offset.toNat →
      vectorized msg = fallback msg fx.offset.toNat fy.offset.toNat fz.offset.toNat) ∧
    ((pc2ToXyzi msg).map (List.map Point.xyz) = pc2ToXyz msg ↔
      msg.count = 0 ∨ ¬ Complete msg ∨ IntensityReadable msg) ∧
    ((pc2ToLidarFrame msg).map (List.map Point.xyz) = pc2ToXyz msg ↔
      msg.count = 0 ∨ ¬ Complete msg ∨ NodeReadable msg) := by
  have hPaths : ∀ fx fy fz, lastField ["x"] msg.fields = some fx → lastField ["y"] msg.fields = some fy →
      lastField ["z"] msg.fields = some fz → Dense msg fx.offset.toNat fy.offset.toNat fz.offset.toNat →
      vectorized msg = fallback msg fx.offset.toNat fy.offset.toNat fz.offset.toNat :=
    fun _ _ _ _ _ _ hDense => vectorized_eq_fallback h hDense
  rcases Nat.eq_zero_or_pos msg.count with hCount | hCount
  · obtain ⟨hXyz, hXyzi, hFrame⟩ := empty_of_count hCount
    exact ⟨by simp [hXyz], hPaths, by simp [hXyz, hXyzi, hCount], by simp [hXyz, hFrame, hCount]⟩
  have hCount : msg.count ≠ 0 := by omega
  rcases Classical.em (Complete msg) with hComplete | hComplete
  · obtain ⟨fx, hX⟩ := Option.isSome_iff_exists.mp (hComplete "x" (by simp))
    obtain ⟨fy, hY⟩ := Option.isSome_iff_exists.mp (hComplete "y" (by simp))
    obtain ⟨fz, hZ⟩ := Option.isSome_iff_exists.mp (hComplete "z" (by simp))
    refine ⟨?_, hPaths, ?_, ?_⟩
    · rw [pc2ToXyz_complete hX hY hZ h hCount]
      rfl
    · rw [pc2ToXyzi_agrees_iff hX hY hZ h hCount]
      simp [hCount, hComplete]
    · rw [pc2ToLidarFrame_agrees_iff hX hY hZ h hCount]
      simp [hCount, hComplete]
  · obtain ⟨hXyz, hXyzi, hFrame⟩ := pc2ToXyz_incomplete hComplete
    exact ⟨by simp [hXyz], hPaths, by simp [hXyz, hXyzi, hComplete], by simp [hXyz, hFrame, hComplete]⟩

/-- Three points whose bytes all differ; the fields are not listed in the order of the coordinates. -/
def threePoints (offX offY offZ offI : UInt32) : PointCloud2 where
  height := 1
  width := 3
  fields := [⟨"z", offZ, 7⟩, ⟨"intensity", offI, 7⟩, ⟨"x", offX, 7⟩, ⟨"y", offY, 7⟩]
  pointStep := 16
  data := (List.range 48).map UInt8.ofNat

/-- The coordinates behind one another, which is read at once, and with the intensity between them. -/
theorem decoders_agree_threePoints :
    vectorized (threePoints 0 4 8 12) = fallback (threePoints 0 4 8 12) 0 4 8 ∧
    (pc2ToXyzi (threePoints 8 12 0 4)).map (List.map Point.xyz) = pc2ToXyz (threePoints 8 12 0 4) ∧
    (pc2ToLidarFrame (threePoints 8 12 0 4)).map (List.map Point.xyz) = pc2ToXyz (threePoints 8 12 0 4) ∧
    pc2ToXyz (threePoints 8 12 0 4) = some [⟨.bits 0x0b0a0908, .bits 0x0f0e0d0c, .bits 0x03020100⟩,
      ⟨.bits 0x1b1a1918, .bits 0x1f1e1d1c, .bits 0x13121110⟩, ⟨.bits 0x2b2a2928, .bits 0x2f2e2d2c, .bits 0x23222120⟩] := by
  have hDense : Framed (threePoints 0 4 8 12) := ⟨by decide, by decide +kernel⟩
  have hMixed : Framed (threePoints 8 12 0 4) := ⟨by decide, by decide +kernel⟩
  obtain ⟨-, -, hXyzi, hFrame⟩ := decoders_agree (threePoints 8 12 0 4) hMixed
  have hIntensity : IntensityReadable (threePoints 8 12 0 4) := by
    unfold IntensityReadable
    decide +kernel
  have hLast : lastField ["intensity"] (threePoints 8 12 0 4).fields = some ⟨"intensity", 4, 7⟩ := by decide +kernel
  have hTime : lastField timeNames (threePoints 8 12 0 4).fields = none := by decide +kernel
  have hNode : NodeReadable (threePoints 8 12 0 4) := by
    refine ⟨by decide +kernel, ?_, ?_⟩
    · intro fd hField
      obtain rfl := Option.some.inj (hField.symm.trans hLast)
      exact fun _ => by decide
    · intro fd width hField
      rw [hTime] at hField
      cases hField
  refine ⟨?_, hXyzi.mpr (.inr (.inr hIntensity)), hFrame.mpr (.inr (.inr hNode)), by decide +kernel⟩
  exact (decoders_agree (threePoints 0 4 8 12) hDense).2.1 ⟨"x", 0, 7⟩ ⟨"y", 4, 7⟩ ⟨"z", 8, 7⟩ (by decide +kernel)
    (by decide +kernel) (by decide +kernel) (by decide +kernel)

/-- One point of twelve bytes; `intensity` is at `offset`, and the stride is `step`. -/
def onePoint (offset step : UInt32) : PointCloud2 where
  height := 1
  width := 1
  fields := [⟨"x", 0, 7⟩, ⟨"y", 4, 7⟩, ⟨"z", 8, 7⟩, ⟨"intensity", offset, 7⟩]
  pointStep := step
  data := List.replicate step.toNat 1

/-- An intensity behind the point: the mesh builder cannot read the column, and the node copies from
behind the data. -/
theorem decoders_disagree_onePoint : Framed (onePoint 12 12) ∧ (pc2ToXyz (onePoint 12 12)).isSome ∧
    pc2ToXyzi (onePoint 12 12) = none ∧ pc2ToLidarFrame (onePoint 12 12) = none := by
  refine ⟨⟨by decide, by decide +kernel⟩, by decide +kernel, by decide +kernel, by decide +kernel⟩

end RoveMapping.Slam
