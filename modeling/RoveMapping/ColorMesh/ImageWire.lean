import RoveMapping.ColorMesh.Channels
import RoveMapping.Library.Cdr

/-! # Image messages on the wire

A `sensor_msgs/Image` as CDR writes it, and what `parse_image_msg` reads back.
-/
namespace RoveMapping.ColorMesh
open Bytes Cdr
set_option autoImplicit false

/-- The bytes of a pixel in the encodings that are decoded. -/
def channels (encoding : String) : Option ℕ :=
  if encoding = "rgb8" then some 3 else if encoding = "bgr8" then some 3 else if encoding = "mono8" then some 1 else none

/-- A message with a picture that is not empty. Its texts hold no zero character, its lengths fit their fields, and
rows of a known encoding are `step` bytes long. -/
structure SensorImage where
  sec : Int32
  nanosec : UInt32
  frameId : String
  height : UInt32
  width : UInt32
  encoding : String
  isBigendian : UInt8
  step : UInt32
  data : List UInt8
  height_pos : 0 < height.toNat
  width_pos : 0 < width.toNat
  frameId_clean : '\x00' ∉ frameId.toList
  encoding_clean : '\x00' ∉ encoding.toList
  frameId_lt : (utf8 frameId).length + 1 < 2 ^ 32
  encoding_lt : (utf8 encoding).length + 1 < 2 ^ 32
  data_lt : data.length < 2 ^ 32
  step_le : ∀ count, channels encoding = some count → width.toNat * count ≤ step.toNat
  data_eq : ∀ count, channels encoding = some count → data.length = step.toNat * height.toNat

namespace SensorImage

def header (m : SensorImage) : List UInt8 :=
  le 4 m.sec.toUInt32.toNat ++ le 4 m.nanosec.toNat ++ Cdr.string m.frameId

def shape (m : SensorImage) : List UInt8 :=
  align m.header ++ le 4 m.height.toNat ++ le 4 m.width.toNat ++ Cdr.string m.encoding ++ [m.isBigendian]

/-- The encapsulation of little-endian CDR, and the fields in their order. -/
def serialize (m : SensorImage) : List UInt8 :=
  [0, 1, 0, 0] ++ (align m.shape ++ le 4 m.step.toNat ++ le 4 m.data.length ++ m.data)

/-- The pixel of row `r` and column `c`, in the order of OpenCV. -/
def pixel (m : SensorImage) (r c : ℕ) : Bgr :=
  let byte := fun k => m.data.getD (r * m.step.toNat + k) 0
  if m.encoding = "rgb8" then ![byte (c * 3 + 2), byte (c * 3 + 1), byte (c * 3)]
  else if m.encoding = "bgr8" then ![byte (c * 3), byte (c * 3 + 1), byte (c * 3 + 2)]
  else fun _ => byte c

/-- The time in nanoseconds. -/
def stamp (m : SensorImage) : ℤ := m.sec.toInt * 10 ^ 9 + m.nanosec.toNat

/-- What `parse_image_msg` reads, before it decodes the pixels. -/
def fields (m : SensorImage) : ImageMsg where
  sec := m.sec.toUInt32.toNat
  nsec := m.nanosec.toNat
  frameId := m.frameId
  height := m.height.toNat
  width := m.width.toNat
  encoding := m.encoding
  isBigendian := m.isBigendian
  step := m.step.toNat
  pixels := m.data

end SensorImage

/-! ## Reading at a position -/

/-- From `pos` on the blob holds `rest`. -/
def At (blob : List UInt8) (pos : ℕ) (rest : List UInt8) : Prop := blob.drop pos = rest

section Reading

variable {blob rest : List UInt8} {pos : ℕ}

theorem At.skip {front : List UInt8} {n : ℕ} (h : At blob pos (front ++ rest)) (hn : front.length = n) :
    At blob (pos + n) rest := by
  rw [At, ← List.drop_drop, h, ← hn, List.drop_left]

theorem At.bound {front : List UInt8} {n : ℕ} (h : At blob pos (front ++ rest)) (hn : front.length = n) (hPos : 0 < n) :
    pos + n ≤ blob.length := by
  have hLength : blob.length - pos = (front ++ rest).length := by rw [← h, List.length_drop]
  rw [List.length_append, hn] at hLength
  omega

theorem readLE_four (b0 b1 b2 b3 : UInt8) :
    readLE [b0, b1, b2, b3] = b0.toNat + 256 * b1.toNat + 65536 * b2.toNat + 16777216 * b3.toNat := by
  simp only [readLE]
  omega

theorem At.u32 {value : ℕ} (h : At blob pos (le 4 value ++ rest)) (hValue : value < 2 ^ 32) :
    unpackU32 blob pos = some value ∧ At blob (pos + 4) rest := by
  refine ⟨?_, h.skip (length_le 4 value)⟩
  have hRead := readLE_le (show value < 256 ^ 4 by omega)
  rw [unpackU32, h]
  simp only [le, List.cons_append, List.nil_append] at hRead ⊢
  rw [readLE_four] at hRead
  rw [hRead]

/-- The final zero is stripped, and nothing else. -/
theorem At.text {s : String} (h : At blob pos (utf8 s ++ [0] ++ rest)) (hClean : '\x00' ∉ s.toList) :
    unpackText blob pos ((utf8 s).length + 1) = some s ∧ At blob (pos + ((utf8 s).length + 1)) rest := by
  refine ⟨?_, h.skip (by simp)⟩
  have hLast : (utf8 s ++ [0]).rdropWhile (· == 0) = utf8 s := by
    rw [List.rdropWhile_concat_pos _ _ _ (by decide), List.rdropWhile_eq_self_iff]
    intro hNonempty hZero
    exact zero_not_mem_utf8 hClean (beq_iff_eq.mp hZero ▸ List.getLast_mem hNonempty)
  rw [unpackText, h, List.take_left' (by simp), hLast, fromUTF8?_utf8]

theorem At.byte {b : UInt8} (h : At blob pos ([b] ++ rest)) : blob[pos]? = some b ∧ At blob (pos + 1) rest := by
  refine ⟨?_, h.skip rfl⟩
  rw [← List.head?_drop, h]
  rfl

theorem At.aligned {length : ℕ} (h : At blob pos (padding length ++ rest)) (hPos : pos % 4 = length % 4) :
    At blob (align4 pos) rest := by
  rw [align4, hPos]
  exact h.skip (length_padding length)

theorem At.buffer (h : At blob pos rest) (hPos : pos ≤ blob.length) : frombuffer blob rest.length pos = some rest := by
  have hLength : rest.length = blob.length - pos := by rw [← h, List.length_drop]
  rw [frombuffer, if_pos (by omega), h, List.take_length]

end Reading

/-- Every field is read where it was written. -/
theorem readImageMsg_serialize (m : SensorImage) : readImageMsg m.serialize = some m.fields := by
  have hStart : At m.serialize 4
      (le 4 m.sec.toUInt32.toNat ++ (le 4 m.nanosec.toNat ++ (le 4 ((utf8 m.frameId).length + 1) ++
        (utf8 m.frameId ++ [0] ++ (padding m.header.length ++ (le 4 m.height.toNat ++ (le 4 m.width.toNat ++
          (le 4 ((utf8 m.encoding).length + 1) ++ (utf8 m.encoding ++ [0] ++ ([m.isBigendian] ++
            (padding m.shape.length ++ (le 4 m.step.toNat ++ (le 4 m.data.length ++ m.data))))))))))))) := by
    simp [At, SensorImage.serialize, SensorImage.shape, SensorImage.header, align, Cdr.string]
  have hHeader : m.header.length = 12 + ((utf8 m.frameId).length + 1) := by
    simp only [SensorImage.header, List.length_append, length_le, length_string]
    omega
  have hShape : m.shape.length =
      m.header.length + (4 - m.header.length % 4) % 4 + 12 + ((utf8 m.encoding).length + 1) + 1 := by
    simp only [SensorImage.shape, align, List.length_append, length_le, length_string, length_padding,
      List.length_singleton]
    omega
  obtain ⟨hSec, hStart⟩ := hStart.u32 m.sec.toUInt32.toNat_lt
  obtain ⟨hNsec, hStart⟩ := hStart.u32 m.nanosec.toNat_lt
  obtain ⟨hFlen, hStart⟩ := hStart.u32 m.frameId_lt
  obtain ⟨hFid, hStart⟩ := hStart.text m.frameId_clean
  have hStart := hStart.aligned (by omega)
  obtain ⟨hHeight, hStart⟩ := hStart.u32 m.height.toNat_lt
  obtain ⟨hWidth, hStart⟩ := hStart.u32 m.width.toNat_lt
  obtain ⟨hElen, hStart⟩ := hStart.u32 m.encoding_lt
  obtain ⟨hEnc, hStart⟩ := hStart.text m.encoding_clean
  obtain ⟨hBig, hStart⟩ := hStart.byte
  have hStart := hStart.aligned (by simp only [align4]; omega)
  obtain ⟨hStep, hStart⟩ := hStart.u32 m.step.toNat_lt
  have hBound := hStart.bound (length_le 4 m.data.length) (by decide)
  obtain ⟨hDlen, hStart⟩ := hStart.u32 m.data_lt
  have hPixels := hStart.buffer hBound
  simp only [Nat.add_assoc, Nat.reduceAdd] at hNsec hFlen hFid hHeight hWidth hElen hEnc hBig hStep hDlen hPixels
  simp only [readImageMsg, Nat.add_assoc, Nat.reduceAdd, Option.bind_eq_bind, Option.bind_some, hSec, hNsec, hFlen, hFid,
    hHeight, hWidth, hElen, hEnc, hBig, hStep, hDlen, hPixels]
  rfl

/-! ## Decoding -/

section Decoding

variable (m : SensorImage)

/-- Bytes of the rows' ends do not fit the shape. -/
theorem reshape_of_step {count : ℕ} (hCount : channels m.encoding = some count) :
    (reshape m.data m.height.toNat m.width.toNat count).isSome ↔ m.step.toNat = m.width.toNat * count := by
  have hData := m.data_eq count hCount
  have hHeight := m.height_pos
  have hShape : m.height.toNat * m.width.toNat * count = m.width.toNat * count * m.height.toNat := by ring
  rw [reshape]
  split
  · rename_i hSize
    rw [hData, hShape] at hSize
    exact iff_of_true rfl (Nat.eq_of_mul_eq_mul_right hHeight hSize)
  · rename_i hSize
    refine iff_of_false Bool.false_ne_true fun hStep => hSize ?_
    rw [hData, hStep, hShape]

/-- The image that `parse_image_msg` owes for a message whose rows have no padding. -/
structure Pictures (image : Image) : Prop where
  height : image.height = m.height.toNat
  width : image.width = m.width.toNat
  pixel : ∀ r c, image.pixel r c = m.pixel r c

variable {m}

theorem decodeImage_of_none (hEncoding : channels m.encoding = none) : decodeImage m.fields = none := by
  rw [channels] at hEncoding
  split at hEncoding
  · cases hEncoding
  split at hEncoding
  · cases hEncoding
  split at hEncoding
  · cases hEncoding
  rename_i hRgb hBgr hMono
  exact (if_neg hRgb).trans ((if_neg hBgr).trans (if_neg hMono))

theorem channels_cases {encoding : String} {count : ℕ} (h : channels encoding = some count) :
    (encoding = "rgb8" ∧ count = 3) ∨ (encoding = "bgr8" ∧ count = 3) ∨ encoding = "mono8" ∧ count = 1 := by
  rw [channels] at h
  split at h
  · cases h
    exact .inl ⟨‹_›, rfl⟩
  split at h
  · cases h
    exact .inr (.inl ⟨‹_›, rfl⟩)
  split at h
  · cases h
    exact .inr (.inr ⟨‹_›, rfl⟩)
  · cases h

theorem decodeImage_rgb8 (msg : ImageMsg) (h : msg.encoding = "rgb8") : decodeImage msg =
    (reshape msg.pixels msg.height msg.width 3).map fun img => ⟨_, _, fun r c k => img r c k.rev⟩ := if_pos h

theorem decodeImage_bgr8 (msg : ImageMsg) (h : msg.encoding = "bgr8") : decodeImage msg =
    (reshape msg.pixels msg.height msg.width 3).map fun img => ⟨_, _, img⟩ := by
  rw [decodeImage, if_neg (by rw [h]; decide), if_pos h]

theorem decodeImage_mono8 (msg : ImageMsg) (h : msg.encoding = "mono8") : decodeImage msg =
    (reshape msg.pixels msg.height msg.width 1).bind fun img => cvtGray2bgr fun r c => img r c 0 := by
  rw [decodeImage, if_neg (by rw [h]; decide), if_neg (by rw [h]; decide), if_pos h]
  rfl

theorem decodeImage_refuses {count : ℕ} (hCount : channels m.encoding = some count)
    (hStep : m.step.toNat ≠ m.width.toNat * count) : decodeImage m.fields = none := by
  have hReshape : reshape m.data m.height.toNat m.width.toNat count = none := by
    rw [← Option.not_isSome_iff_eq_none, reshape_of_step m hCount]
    exact hStep
  rcases channels_cases hCount with ⟨hEncoding, rfl⟩ | ⟨hEncoding, rfl⟩ | ⟨hEncoding, rfl⟩
  · rw [decodeImage_rgb8 m.fields hEncoding]
    exact Option.map_eq_none_iff.mpr hReshape
  · rw [decodeImage_bgr8 m.fields hEncoding]
    exact Option.map_eq_none_iff.mpr hReshape
  · rw [decodeImage_mono8 m.fields hEncoding]
    exact Option.bind_eq_none_iff.mpr fun img hImg => absurd (hReshape.symm.trans hImg) nofun

/-- The array entry of a byte, by the row's length in bytes. -/
theorem reshape_step {count : ℕ} {img : Fin m.height.toNat → Fin m.width.toNat → Fin count → UInt8}
    (hImg : reshape m.data m.height.toNat m.width.toNat count = some img) (hStep : m.step.toNat = m.width.toNat * count)
    (r : Fin m.height.toNat) (c : Fin m.width.toNat) (k : Fin count) :
    img r c k = m.data.getD (r * m.step.toNat + (c * count + k)) 0 := by
  have hIndex : (r : ℕ) * (m.width.toNat * count) + (c * count + k) = (r * m.width.toNat + c) * count + k := by ring
  rw [reshape_eq_some hImg, hStep, hIndex]

theorem decodeImage_pictures {count : ℕ} (hCount : channels m.encoding = some count)
    (hStep : m.step.toNat = m.width.toNat * count) : ∃ image, decodeImage m.fields = some image ∧ Pictures m image := by
  obtain ⟨img, hImg⟩ := Option.isSome_iff_exists.mp ((reshape_of_step m hCount).mpr hStep)
  have hByte := reshape_step hImg hStep
  rcases channels_cases hCount with ⟨hEncoding, rfl⟩ | ⟨hEncoding, rfl⟩ | ⟨hEncoding, rfl⟩
  · refine ⟨⟨_, _, fun r c k => img r c k.rev⟩, ?_, rfl, rfl, fun r c => ?_⟩
    · rw [decodeImage_rgb8 m.fields hEncoding]
      exact Option.map_eq_some_iff.mpr ⟨img, hImg, rfl⟩
    · rw [SensorImage.pixel, if_pos hEncoding]
      funext k
      fin_cases k <;> exact hByte r c _
  · refine ⟨⟨_, _, img⟩, ?_, rfl, rfl, fun r c => ?_⟩
    · rw [decodeImage_bgr8 m.fields hEncoding]
      exact Option.map_eq_some_iff.mpr ⟨img, hImg, rfl⟩
    · have hOther : m.encoding ≠ "rgb8" := by
        rw [hEncoding]
        decide
      rw [SensorImage.pixel, if_neg hOther, if_pos hEncoding]
      funext k
      fin_cases k <;> exact hByte r c _
  · have hSize : ¬(m.height.toNat = 0 ∨ m.width.toNat = 0) := by
      have hHeight := m.height_pos
      have hWidth := m.width_pos
      omega
    refine ⟨⟨_, _, fun r c _ => img r c 0⟩, ?_, rfl, rfl, fun r c => ?_⟩
    · rw [decodeImage_mono8 m.fields hEncoding]
      exact Option.bind_eq_some_iff.mpr ⟨img, hImg, if_neg hSize⟩
    · have hRgb : m.encoding ≠ "rgb8" := by
        rw [hEncoding]
        decide
      have hBgr : m.encoding ≠ "bgr8" := by
        rw [hEncoding]
        decide
      rw [SensorImage.pixel, if_neg hRgb, if_neg hBgr]
      funext k
      simpa using hByte r c 0

/-! ## Exactness -/

/-- Decoding is exact or refuses. -/
structure Exact (m : SensorImage) : Prop where
  decodes : ∀ count, channels m.encoding = some count → m.step.toNat = m.width.toNat * count →
    ∃ tNs image, parseImageMsg m.serialize = some (tNs, m.frameId, image) ∧ (tNs : ℤ) = m.stamp ∧ Pictures m image
  refuses : ∀ count, channels m.encoding = some count → m.width.toNat * count < m.step.toNat →
    parseImageMsg m.serialize = none
  unsupported : channels m.encoding = none → parseImageMsg m.serialize = none

theorem parseImageMsg_serialize (m : SensorImage) :
    parseImageMsg m.serialize = (decodeImage m.fields).map fun img => (m.fields.tNs, m.frameId, img) := by
  rw [parseImageMsg, readImageMsg_serialize, Option.map_eq_bind]
  rfl

/-- The seconds are read without their sign. -/
theorem tNs_eq_stamp_iff (m : SensorImage) : (m.fields.tNs : ℤ) = m.stamp ↔ 0 ≤ m.sec.toInt := by
  have hSec : m.sec.toInt =
      if 2 * m.sec.toUInt32.toNat < 2 ^ 32 then (m.sec.toUInt32.toNat : ℤ) else (m.sec.toUInt32.toNat : ℤ) - (2 ^ 32 : ℕ) :=
    BitVec.toInt_eq_toNat_cond m.sec.toBitVec
  have hLt : m.sec.toUInt32.toNat < 2 ^ 32 := m.sec.toUInt32.toNat_lt
  simp only [ImageMsg.tNs, SensorImage.fields, SensorImage.stamp, Nat.cast_add, Nat.cast_mul]
  split at hSec <;> omega

/-- The stamp of a picture without padding is read as it was set only from the epoch on. -/
theorem Exact.sec_nonneg {m : SensorImage} (h : Exact m) {count : ℕ} (hCount : channels m.encoding = some count)
    (hStep : m.step.toNat = m.width.toNat * count) : 0 ≤ m.sec.toInt := by
  obtain ⟨tNs, image, hParse, hStamp, -⟩ := h.decodes count hCount hStep
  rw [parseImageMsg_serialize] at hParse
  obtain ⟨img, -, hTuple⟩ := Option.map_eq_some_iff.mp hParse
  cases hTuple
  exact (tNs_eq_stamp_iff m).mp hStamp

theorem exact_iff (m : SensorImage) : Exact m ↔
    0 ≤ m.sec.toInt ∨ channels m.encoding = none ∨
      ∃ count, channels m.encoding = some count ∧ m.width.toNat * count < m.step.toNat := by
  constructor
  · intro h
    cases hCount : channels m.encoding with
    | none => exact .inr (.inl rfl)
    | some count =>
      rcases Nat.lt_or_eq_of_le (m.step_le count hCount) with hLess | hEq
      · exact .inr (.inr ⟨count, rfl, hLess⟩)
      · exact .inl (h.sec_nonneg hCount hEq.symm)
  · intro h
    constructor
    · intro count hCount hStep
      obtain ⟨image, hDecode, hPictures⟩ := decodeImage_pictures hCount hStep
      refine ⟨m.fields.tNs, image, by rw [parseImageMsg_serialize, hDecode, Option.map_some], ?_, hPictures⟩
      rcases h with hSec | hNone | ⟨other, hOther, hLess⟩
      · exact (tNs_eq_stamp_iff m).mpr hSec
      · rw [hNone] at hCount
        cases hCount
      · rw [hCount] at hOther
        cases hOther
        omega
    · intro count hCount hLess
      rw [parseImageMsg_serialize, decodeImage_refuses hCount hLess.ne', Option.map_none]
    · intro hNone
      rw [parseImageMsg_serialize, decodeImage_of_none hNone, Option.map_none]

end Decoding

/-! ## A stamp before the epoch -/

section BeforeEpoch

def darkPixel : SensorImage where
  sec := -1
  nanosec := 0
  frameId := "cam"
  height := 1
  width := 1
  encoding := "mono8"
  isBigendian := 0
  step := 1
  data := [0]
  height_pos := by decide
  width_pos := by decide
  frameId_clean := by decide
  encoding_clean := by decide
  frameId_lt := by decide
  encoding_lt := by decide
  data_lt := by decide
  step_le count h := by
    cases h
    decide
  data_eq count h := by
    cases h
    decide

theorem exact_before_epoch : ¬∀ m : SensorImage, Exact m := by
  intro hAlways
  have hCount : channels darkPixel.encoding = some 1 := by decide +kernel
  have hSec := (hAlways darkPixel).sec_nonneg hCount rfl
  exact absurd hSec (by decide)

end BeforeEpoch

end RoveMapping.ColorMesh
