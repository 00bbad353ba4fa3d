import RoveMapping.Slam.PointClouds

/-! # Recordings of the mesh builder

`_write_lidar_recording`: `payload.bin` is a sequence of a header and a body for each scan,
`index.bin` one entry of 21 bytes for each.
-/
namespace RoveMapping.Slam
open Bytes Fallible
set_option autoImplicit false

def MSG_LIDAR : ℕ := 0x01
def WIRE_HEADER_SIZE : ℕ := 20

/-- A buffered scan. Its body has a length of 32 bits; the timestamp is what the clock of its message says. -/
structure Scan where
  timestamp : ℤ
  points : List Point
  timestamp_lt : timestamp < 2 ^ 64
  body_lt : 8 + 16 * points.length < 2 ^ 32

def pointBytes (point : Point) : List UInt8 :=
  le 4 point.x.toNat ++ le 4 point.y.toNat ++ le 4 point.z.toNat ++ le 4 point.intensity.toNat

/-- `xyzi.tobytes()` -/
def tobytes (points : List Point) : List UInt8 := points.flatMap pointBytes

/-- What one turn of the loop appends to `payload.bin` and to `index.bin`; `none` is `struct.error`. -/
def scanBytes (scan : Scan) : Option (List UInt8 × List UInt8) := do
  let front ← pack [(4, scan.points.length), (1, 0)]
  let body := front ++ [0x00, 0x00, 0x00] ++ tobytes scan.points
  let header ← pack [(4, 0), (2, 0), (2, MSG_LIDAR), (4, body.length), (8, scan.timestamp)]
  let entry ← pack [(1, MSG_LIDAR), (8, scan.timestamp), (8, 0), (4, body.length)]
  return (header ++ body, entry)

structure Recording where
  payload : List UInt8
  index : List UInt8

def appendScan (files : Recording) (scan : Scan) : Option Recording :=
  (scanBytes scan).map fun written => ⟨files.payload ++ written.1, files.index ++ written.2⟩

/-- `_write_lidar_recording` -/
def writeLidarRecording (scans : List Scan) : Option Recording := scans.foldlM appendScan ⟨[], []⟩

/-! ## Reading a recording -/

/-- A record of the walk over `payload.bin`. -/
structure Record where
  position : ℕ
  messageType : ℕ
  timestamp : ℕ
  body : List UInt8

def Record.pointCount (record : Record) : ℕ := readLE (record.body.take 4)
def Record.points (record : Record) : List UInt8 := record.body.drop 8

/-- The record at the front of `bytes`: a header of 20 bytes, and as much as its length field says. -/
def frontRecord (position : ℕ) (bytes : List UInt8) : Option Record := do
  let header ← slice? 0 WIRE_HEADER_SIZE bytes
  match unpack [4, 2, 2, 4, 8] header with
  | [_, _, messageType, length, timestamp] =>
    let body ← slice? WIRE_HEADER_SIZE length bytes
    return { position, messageType, timestamp, body }
  | _ => none

/-- Headers are read and bodies skipped until the bytes are used up. -/
def walkFrom (position : ℕ) (bytes : List UInt8) : Option (List Record) :=
  if bytes = [] then some []
  else do
    let record ← frontRecord position bytes
    let size := WIRE_HEADER_SIZE + record.body.length
    let rest ← walkFrom (position + size) (bytes.drop size)
    return record :: rest
termination_by bytes.length
decreasing_by
  have hPos : 0 < bytes.length := List.length_pos_iff.mpr ‹_›
  simp only [List.length_drop, WIRE_HEADER_SIZE]
  omega

def walk (payload : List UInt8) : Option (List Record) := walkFrom 0 payload

structure IndexEntry where
  messageType : ℕ
  timestamp : ℕ
  offset : ℕ
  size : ℕ
deriving DecidableEq

def indexEntry (bytes : List UInt8) : Option IndexEntry :=
  match unpack [1, 8, 8, 4] bytes with
  | [messageType, timestamp, offset, size] => some { messageType, timestamp, offset, size }
  | _ => none

/-- `index.bin` in entries of 21 bytes. -/
def readIndex (index : List UInt8) : Option (List IndexEntry) := do
  let entries ← reshape (index.length / 21) 21 index
  entries.mapM indexEntry

/-- What the offset of an index entry points at. -/
inductive Convention where
  | header
  | body
deriving DecidableEq

def Convention.offset : Convention → Record → ℕ
  | header, record => record.position
  | body, record => record.position + WIRE_HEADER_SIZE

def Convention.entry (convention : Convention) (record : Record) : IndexEntry where
  messageType := record.messageType
  timestamp := record.timestamp
  offset := convention.offset record
  size := record.body.length

structure Carries (record : Record) (scan : Scan) : Prop where
  timestamp : (record.timestamp : ℤ) = scan.timestamp
  pointCount : record.pointCount = scan.points.length
  points : record.points = tobytes scan.points

/-- The recording of the scans, as a reader wants it under a convention. -/
def Navigable (convention : Convention) (scans : List Scan) : Prop :=
  ∃ recording records, writeLidarRecording scans = some recording ∧ walk recording.payload = some records ∧
    List.Forall₂ Carries records scans ∧ readIndex recording.index = some (records.map convention.entry)

/-! ## The bytes that are written -/

def body (scan : Scan) : List UInt8 :=
  encode [(4, scan.points.length), (1, 0)] ++ [0x00, 0x00, 0x00] ++ tobytes scan.points

def header (scan : Scan) : List UInt8 :=
  encode [(4, 0), (2, 0), (2, MSG_LIDAR), (4, (body scan).length), (8, scan.timestamp)]

def entryBytes (scan : Scan) : List UInt8 :=
  encode [(1, MSG_LIDAR), (8, scan.timestamp), (8, 0), (4, (body scan).length)]

theorem body_eq (scan : Scan) :
    body scan = encode [(4, scan.points.length), (1, 0)] ++ [0x00, 0x00, 0x00] ++ tobytes scan.points := by
  rw [body]

theorem header_eq (scan : Scan) : header scan =
    encode [(4, 0), (2, 0), (2, MSG_LIDAR), (4, (body scan).length), (8, scan.timestamp)] := by
  rw [header]

theorem entryBytes_eq (scan : Scan) : entryBytes scan =
    encode [(1, MSG_LIDAR), (8, scan.timestamp), (8, 0), (4, (body scan).length)] := by
  rw [entryBytes]

theorem length_tobytes (points : List Point) : (tobytes points).length = 16 * points.length := by
  induction points with
  | nil => rfl
  | cons point points ih =>
    rw [tobytes, List.flatMap_cons, List.length_append, ← tobytes, ih]
    simp only [pointBytes, List.length_append, length_le, List.length_cons]
    omega

@[simp] theorem length_body (scan : Scan) : (body scan).length = 8 + 16 * scan.points.length := by
  simp only [body, List.length_append, length_encode, length_tobytes, List.map_cons, List.map_nil, List.sum_cons,
    List.sum_nil, List.length_cons, List.length_nil]
  omega

@[simp] theorem length_header (scan : Scan) : (header scan).length = WIRE_HEADER_SIZE := by
  simp [header, length_encode, WIRE_HEADER_SIZE]

@[simp] theorem length_entryBytes (scan : Scan) : (entryBytes scan).length = 21 := by
  simp [entryBytes, length_encode]

theorem front_fits (scan : Scan) : ∀ field ∈ [((4, scan.points.length) : Field), (1, 0)], Fits field := by
  have hBody := scan.body_lt
  simp only [List.forall_mem_cons, Fits, List.not_mem_nil, false_implies, implies_true, and_true]
  omega

theorem body_length_fits (scan : Scan) : Fits (4, (body scan).length) := by
  have hBody := scan.body_lt
  have hLength := length_body scan
  simp only [Fits]
  omega

section Fields
variable {scan : Scan} (hStamp : 0 ≤ scan.timestamp)
include hStamp

theorem timestamp_fits : Fits (8, scan.timestamp) := by
  have hTop := scan.timestamp_lt
  simp only [Fits]
  omega

theorem header_fits : ∀ field ∈ [((4, 0) : Field), (2, 0), (2, MSG_LIDAR), (4, (body scan).length),
    (8, scan.timestamp)], Fits field := by
  simp only [List.forall_mem_cons, List.not_mem_nil, false_implies, implies_true, and_true]
  exact ⟨by decide, by decide, by decide, body_length_fits scan, timestamp_fits hStamp⟩

theorem entry_fits : ∀ field ∈ [((1, MSG_LIDAR) : Field), (8, scan.timestamp), (8, 0), (4, (body scan).length)],
    Fits field := by
  simp only [List.forall_mem_cons, List.not_mem_nil, false_implies, implies_true, and_true]
  exact ⟨by decide, timestamp_fits hStamp, by decide, body_length_fits scan⟩

theorem scanBytes_eq : scanBytes scan = some (header scan ++ body scan, entryBytes scan) := by
  unfold scanBytes
  rw [pack_of_fits (front_fits scan), Option.bind_eq_bind, Option.bind_some, ← body_eq]
  dsimp only
  rw [pack_of_fits (header_fits hStamp), Option.bind_some, pack_of_fits (entry_fits hStamp), Option.bind_some,
    ← header_eq, ← entryBytes_eq, Option.pure_def]

end Fields

theorem stamp_of_scanBytes {scan : Scan} {written : List UInt8 × List UInt8} (h : scanBytes scan = some written) :
    0 ≤ scan.timestamp := by
  unfold scanBytes at h
  obtain ⟨_, -, h⟩ := Option.bind_eq_some_iff.mp h
  obtain ⟨_, hHeader, -⟩ := Option.bind_eq_some_iff.mp h
  exact (fits_of_pack hHeader (8, scan.timestamp) (by simp)).1

/-! ## The bytes of a message -/

theorem le_word {bytes : List UInt8} (h : bytes.length = 4) : le 4 (word bytes).toNat = bytes := by
  have hLt := readLE_lt bytes
  rw [h] at hLt
  have hWord : (word bytes).toNat = readLE bytes := by
    rw [word, UInt32.toNat_ofNat']
    omega
  rw [hWord]
  calc le 4 (readLE bytes) = le bytes.length (readLE bytes) := by rw [h]
    _ = bytes := le_readLE bytes

/-- A scan decoded from a message is recorded with the bytes that the message has for x, y and z. -/
theorem tobytes_rowPoint {raw : List (List UInt8)} {step offX offY offZ : ℕ} (hRaw : ∀ row ∈ raw, row.length = step)
    (hX : offX + 4 ≤ step) (hY : offY + 4 ≤ step) (hZ : offZ + 4 ≤ step) :
    tobytes (raw.map (rowPoint offX offY offZ)) =
      raw.flatMap fun row => slice offX 4 row ++ slice offY 4 row ++ slice offZ 4 row ++ [0, 0, 0, 0] := by
  rw [tobytes, List.flatMap_map]
  apply List.flatMap_congr
  intro row hRow
  have hSlice (off : ℕ) (hOff : off + 4 ≤ step) : (slice off 4 row).length = 4 := by
    rw [length_slice, hRaw row hRow]
    omega
  have hZero : le 4 (0 : Word).toNat = [0, 0, 0, 0] := by decide
  rw [pointBytes, rowPoint, le_word (hSlice offX hX), le_word (hSlice offY hY), le_word (hSlice offZ hZ), hZero]

/-! ## The walk -/

/-- The records of the scans, the first of them at `position`. -/
def recordsFrom (position : ℕ) : List Scan → List Record
  | [] => []
  | scan :: scans =>
    ⟨position, MSG_LIDAR, scan.timestamp.toNat, body scan⟩ ::
      recordsFrom (position + (WIRE_HEADER_SIZE + (body scan).length)) scans

def payloadOf (scans : List Scan) : List UInt8 := scans.flatMap fun scan => header scan ++ body scan
def indexOf (scans : List Scan) : List UInt8 := (scans.map entryBytes).flatten

theorem foldlM_appendScan {scans : List Scan} (h : ∀ scan ∈ scans, 0 ≤ scan.timestamp) (files : Recording) :
    scans.foldlM appendScan files = some ⟨files.payload ++ payloadOf scans, files.index ++ indexOf scans⟩ := by
  induction scans generalizing files with
  | nil => simp [payloadOf, indexOf]
  | cons scan scans ih =>
    have hHead : 0 ≤ scan.timestamp := h scan (by simp)
    have hTail := ih fun other hOther => h other (by simp [hOther])
    have hStep : appendScan files scan =
        some ⟨files.payload ++ (header scan ++ body scan), files.index ++ entryBytes scan⟩ := by
      rw [appendScan, scanBytes_eq hHead, Option.map_some]
    rw [List.foldlM_cons, hStep, Option.bind_eq_bind, Option.bind_some, hTail]
    simp [payloadOf, indexOf]

theorem writeLidarRecording_eq {scans : List Scan} (h : ∀ scan ∈ scans, 0 ≤ scan.timestamp) :
    writeLidarRecording scans = some ⟨payloadOf scans, indexOf scans⟩ := by
  rw [writeLidarRecording, foldlM_appendScan h, List.nil_append, List.nil_append]

theorem stamps_of_foldlM {scans : List Scan} {files recording : Recording}
    (h : scans.foldlM appendScan files = some recording) : ∀ scan ∈ scans, 0 ≤ scan.timestamp := by
  induction scans generalizing files with
  | nil => simp
  | cons scan scans ih =>
    rw [List.foldlM_cons] at h
    obtain ⟨next, hStep, hRest⟩ := Option.bind_eq_some_iff.mp h
    obtain ⟨written, hWritten, -⟩ := Option.map_eq_some_iff.mp hStep
    simpa [stamp_of_scanBytes hWritten] using ih hRest

theorem frontRecord_append {scan : Scan} (hStamp : 0 ≤ scan.timestamp) (position : ℕ) (rest : List UInt8) :
    frontRecord position (header scan ++ body scan ++ rest) =
      some ⟨position, MSG_LIDAR, scan.timestamp.toNat, body scan⟩ := by
  have hHeader : slice? 0 WIRE_HEADER_SIZE (header scan ++ body scan ++ rest) = some (header scan) := by
    rw [slice?_of_le (by simp), slice, List.drop_zero, List.append_assoc, List.take_left' (length_header scan)]
  have hFields := unpack_encode_append _ (header_fits hStamp) []
  rw [List.append_nil, ← header] at hFields
  have hBody : slice? WIRE_HEADER_SIZE (body scan).length (header scan ++ body scan ++ rest) = some (body scan) := by
    rw [slice?_of_le (by simp), slice, List.append_assoc, List.drop_left' (length_header scan), List.take_left' rfl]
  simp only [List.map_cons, List.map_nil, Int.toNat_natCast] at hFields
  simp only [frontRecord, hHeader, Option.bind_eq_bind, Option.bind_some, hFields, hBody]
  rfl

theorem walkFrom_payloadOf {scans : List Scan} (h : ∀ scan ∈ scans, 0 ≤ scan.timestamp) (position : ℕ) :
    walkFrom position (payloadOf scans) = some (recordsFrom position scans) := by
  induction scans generalizing position with
  | nil =>
    rw [walkFrom]
    rfl
  | cons scan scans ih =>
    have hHead : 0 ≤ scan.timestamp := h scan (by simp)
    have hTail := ih fun other hOther => h other (by simp [hOther])
    have hPayload : payloadOf (scan :: scans) = header scan ++ body scan ++ payloadOf scans := by simp [payloadOf]
    have hSome : payloadOf (scan :: scans) ≠ [] := by
      intro hEmpty
      have hLength := congrArg List.length hEmpty
      simp [hPayload, WIRE_HEADER_SIZE] at hLength
    have hSkip : (header scan ++ body scan).length = WIRE_HEADER_SIZE + (body scan).length := by simp
    rw [walkFrom, if_neg hSome, hPayload, frontRecord_append hHead]
    simp only [Option.bind_eq_bind, Option.bind_some, List.drop_left' hSkip, hTail]
    rfl

theorem carries_recordsFrom {scans : List Scan} (h : ∀ scan ∈ scans, 0 ≤ scan.timestamp) (position : ℕ) :
    List.Forall₂ Carries (recordsFrom position scans) scans := by
  induction scans generalizing position with
  | nil => exact .nil
  | cons scan scans ih =>
    have hHead : 0 ≤ scan.timestamp := h scan (by simp)
    have hTail := ih fun other hOther => h other (by simp [hOther])
    refine .cons ⟨Int.toNat_of_nonneg hHead, ?_, ?_⟩ (hTail _)
    · have hCount : scan.points.length < 256 ^ 4 := by
        have hBody := scan.body_lt
        omega
      have hTake : (body scan).take 4 = le 4 scan.points.length := by
        rw [body, encode_cons, List.append_assoc, List.append_assoc]
        exact List.take_left' (length_le ..)
      rw [Record.pointCount, hTake, readLE_le hCount]
    · have hPrefix : (encode [(4, scan.points.length), (1, 0)] ++ [0x00, 0x00, 0x00]).length = 8 := by
        simp [length_encode]
      exact List.drop_left' hPrefix

/-! ## The index -/

theorem indexEntry_entryBytes {scan : Scan} (hStamp : 0 ≤ scan.timestamp) :
    indexEntry (entryBytes scan) = some ⟨MSG_LIDAR, scan.timestamp.toNat, 0, (body scan).length⟩ := by
  have hFields := unpack_encode_append _ (entry_fits hStamp) []
  rw [List.append_nil, ← entryBytes] at hFields
  simp only [List.map_cons, List.map_nil, Int.toNat_natCast] at hFields
  rw [indexEntry, hFields]
  rfl

theorem readIndex_indexOf {scans : List Scan} (h : ∀ scan ∈ scans, 0 ≤ scan.timestamp) :
    readIndex (indexOf scans) =
      some (scans.map fun scan => ⟨MSG_LIDAR, scan.timestamp.toNat, 0, (body scan).length⟩) := by
  have hWidth : ∀ entry ∈ scans.map entryBytes, entry.length = 21 := by simp
  have hCount : (indexOf scans).length / 21 = (scans.map entryBytes).length := by
    rw [indexOf, length_flatten_of_rows _ hWidth]
    omega
  rw [readIndex, hCount, indexOf, reshape_flatten _ hWidth, Option.bind_eq_bind, Option.bind_some, List.mapM_map]
  exact mapM_eq_some_map fun scan hScan => indexEntry_entryBytes (h scan hScan)

theorem entries_recordsFrom (convention : Convention) (scans : List Scan) (position : ℕ) :
    (recordsFrom position scans).map convention.entry =
        scans.map (fun scan => ⟨MSG_LIDAR, scan.timestamp.toNat, 0, (body scan).length⟩) ↔
      ∀ record ∈ recordsFrom position scans, convention.offset record = 0 := by
  induction scans generalizing position with
  | nil => simp [recordsFrom]
  | cons scan scans ih =>
    simp only [recordsFrom, List.map_cons, List.cons.injEq, ih, List.forall_mem_cons]
    simp [Convention.entry]

theorem offsets_eq_zero (convention : Convention) (scans : List Scan) :
    (∀ record ∈ recordsFrom 0 scans, convention.offset record = 0) ↔
      scans = [] ∨ convention = .header ∧ scans.length = 1 := by
  match convention, scans with
  | _, [] => simp [recordsFrom]
  | .body, scan :: scans =>
    rw [recordsFrom, List.forall_mem_cons]
    simp [Convention.offset, WIRE_HEADER_SIZE]
  | .header, [scan] => simp [recordsFrom, Convention.offset]
  | .header, first :: second :: scans => simp [recordsFrom, Convention.offset, WIRE_HEADER_SIZE]

theorem shape_of_navigable {convention : Convention} {scans : List Scan} (h : Navigable convention scans) :
    (∀ scan ∈ scans, 0 ≤ scan.timestamp) ∧ (scans = [] ∨ convention = .header ∧ scans.length = 1) := by
  obtain ⟨recording, records, hWrite, hWalk, -, hIndex⟩ := h
  have hStamps := stamps_of_foldlM hWrite
  rw [writeLidarRecording_eq hStamps] at hWrite
  obtain rfl := Option.some.inj hWrite
  rw [walk, walkFrom_payloadOf hStamps] at hWalk
  obtain rfl := Option.some.inj hWalk
  rw [readIndex_indexOf hStamps] at hIndex
  have hOffsets := (entries_recordsFrom convention scans 0).mp (Option.some.inj hIndex).symm
  exact ⟨hStamps, (offsets_eq_zero convention scans).mp hOffsets⟩

theorem navigable_of_shape {convention : Convention} {scans : List Scan}
    (hStamps : ∀ scan ∈ scans, 0 ≤ scan.timestamp) (hScans : scans = [] ∨ convention = .header ∧ scans.length = 1) :
    Navigable convention scans := by
  have hOffsets := (offsets_eq_zero convention scans).mpr hScans
  refine ⟨_, _, writeLidarRecording_eq hStamps, walkFrom_payloadOf hStamps 0, carries_recordsFrom hStamps 0, ?_⟩
  rw [readIndex_indexOf hStamps, (entries_recordsFrom convention scans 0).mpr hOffsets]

/-- Every entry says offset 0. Only the first record begins there, and no body does. -/
theorem navigable_iff (convention : Convention) (scans : List Scan) :
    Navigable convention scans ↔
      (∀ scan ∈ scans, 0 ≤ scan.timestamp) ∧ (scans = [] ∨ convention = .header ∧ scans.length = 1) := by
  constructor
  · exact shape_of_navigable
  · rintro ⟨hStamps, hScans⟩
    exact navigable_of_shape hStamps hScans

def pointScan (timestamp : Fin 2) : Scan where
  timestamp := timestamp
  points := [⟨0x3f800000, 0x40000000, 0x40400000, 0⟩]
  timestamp_lt := by omega
  body_lt := by decide

theorem two_scans_not_navigable : ¬ ∃ convention, Navigable convention [pointScan 0, pointScan 1] := by
  rintro ⟨convention, h⟩
  obtain ⟨-, hEmpty | ⟨-, hOne⟩⟩ := shape_of_navigable h
  · cases hEmpty
  · cases hOne

end RoveMapping.Slam
