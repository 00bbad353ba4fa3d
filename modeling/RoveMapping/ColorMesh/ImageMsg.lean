import Mathlib.Data.List.DropRight
import Mathlib.Data.Fin.VecNotation
import Mathlib.Tactic.Ring

/-! # Camera images of a bag

`parse_image_msg` and `load_camera_keyframes`: the bytes of a `sensor_msgs/Image`, the three
encodings that are decoded, and the frames that are kept.
-/
namespace RoveMapping.ColorMesh
set_option autoImplicit false

/-- `struct.unpack_from("<I", blob, pos)` -/
def unpackU32 (blob : List UInt8) (pos : ℕ) : Option ℕ :=
  match blob.drop pos with
  | b0 :: b1 :: b2 :: b3 :: _ => some (b0.toNat + 256 * b1.toNat + 65536 * b2.toNat + 16777216 * b3.toNat)
  | _ => none

/-- `blob[pos:pos + len].rstrip(b"\x00").decode()` -/
def unpackText (blob : List UInt8) (pos len : ℕ) : Option String :=
  String.fromUTF8? ⟨(((blob.drop pos).take len).rdropWhile (· == 0)).toArray⟩

def align4 (pos : ℕ) : ℕ := pos + (4 - pos % 4) % 4

/-- `np.frombuffer(blob, dtype=np.uint8, count=count, offset=offset)` -/
def frombuffer (blob : List UInt8) (count offset : ℕ) : Option (List UInt8) :=
  if offset + count ≤ blob.length then some ((blob.drop offset).take count) else none

structure ImageMsg where
  sec : ℕ
  nsec : ℕ
  frameId : String
  height : ℕ
  width : ℕ
  encoding : String
  isBigendian : UInt8
  step : ℕ
  pixels : List UInt8
deriving DecidableEq

def readImageMsg (blob : List UInt8) : Option ImageMsg := do
  let pos := 4
  let sec ← unpackU32 blob pos
  let nsec ← unpackU32 blob (pos + 4)
  let pos := pos + 8
  let flen ← unpackU32 blob pos
  let pos := pos + 4
  let fid ← unpackText blob pos flen
  let pos := align4 (pos + flen)
  let height ← unpackU32 blob pos
  let width ← unpackU32 blob (pos + 4)
  let pos := pos + 8
  let elen ← unpackU32 blob pos
  let pos := pos + 4
  let enc ← unpackText blob pos elen
  let pos := pos + elen
  let big ← blob[pos]?
  let pos := align4 (pos + 1)
  let step ← unpackU32 blob pos
  let pos := pos + 4
  let dlen ← unpackU32 blob pos
  let pos := pos + 4
  let pixels ← frombuffer blob dlen pos
  return { sec, nsec, frameId := fid, height, width, encoding := enc, isBigendian := big, step, pixels }

/-- A colour as the arrays hold it, in OpenCV's order: blue, green, red. -/
abbrev Bgr := Fin 3 → UInt8

structure Image where
  height : ℕ
  width : ℕ
  pixel : Fin height → Fin width → Bgr

theorem cell_lt {height width channels r c k : ℕ} (hr : r < height) (hc : c < width) (hk : k < channels) :
    (r * width + c) * channels + k < height * width * channels := by
  have hCell : r * width + c + 1 ≤ height * width := by
    calc r * width + c + 1 ≤ r * width + width := by omega
      _ = (r + 1) * width := by ring
      _ ≤ height * width := Nat.mul_le_mul_right _ hr
  calc (r * width + c) * channels + k < (r * width + c) * channels + channels := by omega
    _ = (r * width + c + 1) * channels := by ring
    _ ≤ height * width * channels := Nat.mul_le_mul_right _ hCell

/-- `pixels.reshape(height, width, channels)`, which refuses any other number of bytes. -/
def reshape (pixels : List UInt8) (height width channels : ℕ) :
    Option (Fin height → Fin width → Fin channels → UInt8) :=
  if hSize : pixels.length = height * width * channels then
    some fun r c k => pixels.get ⟨(r * width + c) * channels + k, hSize ▸ cell_lt r.2 c.2 k.2⟩
  else none

/-- `cv2.cvtColor(img, cv2.COLOR_GRAY2BGR)`, which refuses an empty image. -/
def cvtGray2bgr {height width : ℕ} (gray : Fin height → Fin width → UInt8) : Option Image :=
  if height = 0 ∨ width = 0 then none else some ⟨height, width, fun r c _ => gray r c⟩

def decodeImage (msg : ImageMsg) : Option Image :=
  if msg.encoding = "rgb8" then
    (reshape msg.pixels msg.height msg.width 3).map fun img => ⟨_, _, fun r c k => img r c k.rev⟩
  else if msg.encoding = "bgr8" then
    (reshape msg.pixels msg.height msg.width 3).map fun img => ⟨_, _, img⟩
  else if msg.encoding = "mono8" then do
    let img ← reshape msg.pixels msg.height msg.width 1
    cvtGray2bgr fun r c => img r c 0
  else none

def ImageMsg.tNs (msg : ImageMsg) : ℕ := msg.sec * 1000000000 + msg.nsec

def parseImageMsg (blob : List UInt8) : Option (ℕ × String × Image) := do
  let msg ← readImageMsg blob
  let img ← decodeImage msg
  return (msg.tNs, msg.frameId, img)

section Keyframes

structure Row where
  data : List UInt8
  timestamp : ℤ

def keyframe (blob : List UInt8) : Option (ℕ × Image) := (parseImageMsg blob).map fun (tNs, _, img) => (tNs, img)

def keyframes (strideNs : ℤ) : ℤ → List Row → List (ℕ × Image)
  | _, [] => []
  | lastT, row :: rows =>
      if row.timestamp - lastT < strideNs then keyframes strideNs lastT rows
      else
        match keyframe row.data with
        | none => keyframes strideNs lastT rows
        | some kept => kept :: keyframes strideNs row.timestamp rows

def loadCameraKeyframes (strideNs : ℤ) (topics : List (String × List Row)) : List (String × List (ℕ × Image)) :=
  topics.map fun (topic, rows) => (topic, keyframes strideNs 0 rows)

def decodeKeyframes (blobs : List (String × List (List UInt8))) : List (String × List (ℕ × Image)) :=
  blobs.map fun (topic, messages) => (topic, messages.filterMap keyframe)

theorem keyframes_eq (strideNs lastT : ℤ) (rows : List Row) :
    ∃ chosen : List (List UInt8), chosen.Sublist (rows.map Row.data) ∧
      keyframes strideNs lastT rows = chosen.filterMap keyframe := by
  induction rows generalizing lastT with
  | nil => exact ⟨[], .slnil, rfl⟩
  | cons row rows ih =>
      rw [keyframes]
      split
      · obtain ⟨chosen, hChosen, hKeyframes⟩ := ih lastT
        exact ⟨chosen, hChosen.cons _, hKeyframes⟩
      · split
        · obtain ⟨chosen, hChosen, hKeyframes⟩ := ih lastT
          exact ⟨chosen, hChosen.cons _, hKeyframes⟩
        · rename_i kept hKept
          obtain ⟨chosen, hChosen, hKeyframes⟩ := ih row.timestamp
          exact ⟨row.data :: chosen, hChosen.cons_cons _, by rw [List.filterMap_cons_some hKept, hKeyframes]⟩

/-- The stride only chooses messages: the frames of a bag are those of some of its messages. -/
theorem loadCameraKeyframes_eq (strideNs : ℤ) (topics : List (String × List Row)) :
    ∃ blobs : List (String × List (List UInt8)), loadCameraKeyframes strideNs topics = decodeKeyframes blobs ∧
      List.Forall₂ (fun chosen topic => chosen.1 = topic.1 ∧ chosen.2.Sublist (topic.2.map Row.data)) blobs topics := by
  induction topics with
  | nil => exact ⟨[], rfl, .nil⟩
  | cons topic topics ih =>
      obtain ⟨blobs, hFrames, hChosen⟩ := ih
      obtain ⟨chosen, hSublist, hKeyframes⟩ := keyframes_eq strideNs 0 topic.2
      refine ⟨(topic.1, chosen) :: blobs, ?_, .cons ⟨rfl, hSublist⟩ hChosen⟩
      simp only [loadCameraKeyframes, decodeKeyframes, List.map_cons] at hFrames ⊢
      rw [hFrames, hKeyframes]

end Keyframes

end RoveMapping.ColorMesh
