import Mathlib.Data.List.Flatten
import Mathlib.Tactic.Ring

/-! # Little-endian fields and fixed-width rows of a byte list

Unsigned fields of a given width, records packed of several of them, and a list cut into rows of
one width.
-/
namespace RoveMapping.Bytes
set_option autoImplicit false

/-! ## One field -/

/-- `value` in `width` bytes, the low byte first. -/
def le : ℕ → ℕ → List UInt8
  | 0, _ => []
  | width + 1, value => UInt8.ofNat value :: le width (value / 256)

def readLE : List UInt8 → ℕ
  | [] => 0
  | byte :: bytes => byte.toNat + 256 * readLE bytes

@[simp] theorem length_le (width value : ℕ) : (le width value).length = width := by
  induction width generalizing value with
  | zero => rfl
  | succ width ih => simp [le, ih]

theorem readLE_lt (bytes : List UInt8) : readLE bytes < 256 ^ bytes.length := by
  induction bytes with
  | nil => simp [readLE]
  | cons byte bytes ih =>
    have hByte : byte.toNat < 256 := byte.toNat_lt
    rw [readLE, List.length_cons, pow_succ]
    omega

theorem readLE_le {width value : ℕ} (h : value < 256 ^ width) : readLE (le width value) = value := by
  induction width generalizing value with
  | zero =>
    rw [pow_zero] at h
    simp [le, readLE]
    omega
  | succ width ih =>
    have hRest : value / 256 < 256 ^ width := by
      rw [pow_succ] at h
      omega
    have hByte : (UInt8.ofNat value).toNat = value % 256 := by simp
    rw [le, readLE, ih hRest, hByte]
    omega

theorem le_readLE (bytes : List UInt8) : le bytes.length (readLE bytes) = bytes := by
  induction bytes with
  | nil => rfl
  | cons byte bytes ih =>
    have hByte : byte.toNat < 256 := byte.toNat_lt
    have hHigh : (byte.toNat + 256 * readLE bytes) / 256 = readLE bytes := by omega
    have hLow : UInt8.ofNat (byte.toNat + 256 * readLE bytes) = byte := by
      apply UInt8.toNat_inj.mp
      rw [UInt8.toNat_ofNat']
      omega
    rw [List.length_cons, readLE, le, hHigh, hLow, ih]

/-! ## A record of several fields -/

/-- A field is its width and the value that it is to hold. -/
abbrev Field := ℕ × ℤ

def Fits (field : Field) : Prop := 0 ≤ field.2 ∧ field.2 < 256 ^ field.1

instance (field : Field) : Decidable (Fits field) := inferInstanceAs (Decidable (_ ∧ _))

def encode (fields : List Field) : List UInt8 := fields.flatMap fun field => le field.1 field.2.toNat

/-- `none` when a value is out of the range of its field. -/
def pack (fields : List Field) : Option (List UInt8) :=
  if ∀ field ∈ fields, Fits field then some (encode fields) else none

/-- The values of consecutive fields; a short input gives small values, as its caller checks the length. -/
def unpack : List ℕ → List UInt8 → List ℕ
  | [], _ => []
  | width :: widths, bytes => readLE (bytes.take width) :: unpack widths (bytes.drop width)

theorem pack_of_fits {fields : List Field} (h : ∀ field ∈ fields, Fits field) : pack fields = some (encode fields) :=
  if_pos h

theorem fits_of_pack {fields : List Field} {bytes : List UInt8} (h : pack fields = some bytes) :
    ∀ field ∈ fields, Fits field := by
  unfold pack at h
  split at h
  · assumption
  · cases h

@[simp] theorem encode_cons (field : Field) (fields : List Field) :
    encode (field :: fields) = le field.1 field.2.toNat ++ encode fields := by
  simp [encode]

theorem length_encode (fields : List Field) : (encode fields).length = (fields.map Prod.fst).sum := by
  induction fields with
  | nil => rfl
  | cons field fields ih => simp [ih]

theorem unpack_encode_append (fields : List Field) (h : ∀ field ∈ fields, Fits field) (rest : List UInt8) :
    unpack (fields.map Prod.fst) (encode fields ++ rest) = fields.map fun field => field.2.toNat := by
  induction fields with
  | nil => rfl
  | cons field fields ih =>
    obtain ⟨hLow, hHigh⟩ := h field (by simp)
    have hFits : field.2.toNat < 256 ^ field.1 := by
      have hCast : ((field.2.toNat : ℕ) : ℤ) < ((256 ^ field.1 : ℕ) : ℤ) := by
        rw [Int.toNat_of_nonneg hLow]
        exact_mod_cast hHigh
      exact_mod_cast hCast
    have hTail := ih fun other hOther => h other (by simp [hOther])
    have hLength : (le field.1 field.2.toNat).length = field.1 := length_le ..
    rw [encode_cons, List.append_assoc, List.map_cons, List.map_cons, unpack,
      List.take_left' hLength, List.drop_left' hLength, readLE_le hFits, hTail]

/-! ## Rows -/

section Rows
variable {α : Type}

def slice (pos len : ℕ) (xs : List α) : List α := (xs.drop pos).take len

/-- `xs` as `count` rows of `width` entries. -/
def rows : ℕ → ℕ → List α → List (List α)
  | 0, _, _ => []
  | count + 1, width, xs => xs.take width :: rows count width (xs.drop width)

/-- The entries `pos` to `pos + len`, when they are all there. -/
def slice? (pos len : ℕ) (xs : List α) : Option (List α) :=
  if pos + len ≤ xs.length then some (slice pos len xs) else none

/-- `xs` as a `count × width` array, row by row; the shapes must hold equally many entries. -/
def reshape (count width : ℕ) (xs : List α) : Option (List (List α)) :=
  if xs.length = count * width then some (rows count width xs) else none

theorem length_slice (pos len : ℕ) (xs : List α) : (slice pos len xs).length = min len (xs.length - pos) := by
  simp [slice]

theorem slice_slice {outer width pos len : ℕ} (xs : List α) (h : pos + len ≤ width) :
    slice pos len (slice outer width xs) = slice (outer + pos) len xs := by
  have hLen : min len (width - pos) = len := by omega
  rw [slice, slice, slice, List.drop_take, List.take_take, List.drop_drop, hLen]

theorem slice?_of_le {pos len : ℕ} {xs : List α} (h : pos + len ≤ xs.length) :
    slice? pos len xs = some (slice pos len xs) := if_pos h

theorem slice?_isSome {pos len : ℕ} {xs : List α} : (slice? pos len xs).isSome ↔ pos + len ≤ xs.length := by
  rw [slice?]
  split <;> simp_all

@[simp] theorem length_rows (count width : ℕ) (xs : List α) : (rows count width xs).length = count := by
  induction count generalizing xs with
  | zero => rfl
  | succ count ih => simp [rows, ih]

theorem length_flatten_of_rows {width : ℕ} (parts : List (List α)) (h : ∀ part ∈ parts, part.length = width) :
    parts.flatten.length = parts.length * width := by
  have hLengths : parts.map List.length = List.replicate parts.length width := by
    apply List.eq_replicate_iff.mpr
    simpa using h
  rw [List.length_flatten, hLengths, List.sum_replicate_nat]

theorem rows_flatten {width : ℕ} (parts : List (List α)) (h : ∀ part ∈ parts, part.length = width) :
    rows parts.length width parts.flatten = parts := by
  induction parts with
  | nil => rfl
  | cons part parts ih =>
    have hPart : part.length = width := h part (by simp)
    have hTail := ih fun other hOther => h other (by simp [hOther])
    rw [List.length_cons, List.flatten_cons, rows, List.take_left' hPart, List.drop_left' hPart, hTail]

theorem rows_eq_map_range (count width : ℕ) (xs : List α) :
    rows count width xs = (List.range count).map fun i => slice (i * width) width xs := by
  induction count generalizing xs with
  | zero => rfl
  | succ count ih =>
    rw [rows, ih, List.range_succ_eq_map, List.map_cons, List.map_map]
    congr 1
    · simp [slice]
    · apply List.map_congr_left
      intro i hi
      have hDrop : width + i * width = (i + 1) * width := by ring
      simp only [Function.comp_apply, slice, List.drop_drop, hDrop, Nat.succ_eq_add_one]

theorem flatten_rows {count width : ℕ} {xs : List α} (h : xs.length = count * width) :
    (rows count width xs).flatten = xs := by
  induction count generalizing xs with
  | zero =>
    rw [Nat.zero_mul] at h
    simp [rows, List.eq_nil_of_length_eq_zero h]
  | succ count ih =>
    have hTail : (xs.drop width).length = count * width := by
      rw [List.length_drop, h, Nat.succ_mul]
      omega
    rw [rows, List.flatten_cons, ih hTail, List.take_append_drop]

theorem length_of_mem_rows {count width : ℕ} {xs : List α} (h : xs.length = count * width) :
    ∀ row ∈ rows count width xs, row.length = width := by
  induction count generalizing xs with
  | zero => simp [rows]
  | succ count ih =>
    have hTail : (xs.drop width).length = count * width := by
      rw [List.length_drop, h, Nat.succ_mul]
      omega
    have hHead : (xs.take width).length = width := by
      rw [List.length_take, h, Nat.succ_mul]
      omega
    simpa [rows, hHead] using ih hTail

theorem reshape_flatten {width : ℕ} (parts : List (List α)) (h : ∀ part ∈ parts, part.length = width) :
    reshape parts.length width parts.flatten = some parts := by
  rw [reshape, if_pos (length_flatten_of_rows parts h), rows_flatten parts h]

end Rows

end RoveMapping.Bytes
