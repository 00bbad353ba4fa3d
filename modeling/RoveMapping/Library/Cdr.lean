import RoveMapping.Library.Bytes

/-! # Strings and alignment of CDR

The parts of a little-endian CDR stream other than numbers: texts in UTF-8 with their length and a final zero, and
the padding in front of a field of four bytes.
-/
namespace RoveMapping.Cdr
open Bytes
set_option autoImplicit false

/-! ## Texts -/

def utf8 (s : String) : List UInt8 := s.toByteArray.data.toList

theorem utf8_eq (s : String) : utf8 s = s.toList.flatMap String.utf8EncodeChar := by
  rw [utf8, ← String.utf8Encode_toList, List.utf8Encode, List.toList_data_toByteArray]

theorem fromUTF8?_utf8 (s : String) : String.fromUTF8? ⟨(utf8 s).toArray⟩ = some s := by
  simp [utf8, String.fromUTF8?, s.isValidUTF8, String.fromUTF8]

/-- Only the character zero is encoded with a zero byte. -/
theorem zero_not_mem_utf8EncodeChar {c : Char} (h : c ≠ '\x00') : 0 ∉ String.utf8EncodeChar c := by
  have hPos : 0 < c.val.toNat := by
    apply Nat.pos_of_ne_zero
    intro hZero
    exact h (Char.ext (UInt32.toNat_inj.mp hZero))
  have hBound : c.val.toNat < 0x110000 := by
    have hValid := c.valid
    simp only [UInt32.isValidChar, Nat.isValidChar] at hValid
    omega
  have hByte : ∀ n : ℕ, n % 256 ≠ 0 → (0 : UInt8) ≠ UInt8.ofNat n := by
    intro n hn hEq
    apply hn
    have hNat := congrArg UInt8.toNat hEq
    rw [UInt8.toNat_ofNat'] at hNat
    exact hNat.symm
  unfold String.utf8EncodeChar
  dsimp only
  split
  · exact List.not_mem_cons_of_ne_of_not_mem (hByte _ (by omega)) List.not_mem_nil
  · split
    · simp only [List.mem_cons, List.not_mem_nil, or_false, not_or]
      exact ⟨hByte _ (by omega), hByte _ (by omega)⟩
    · split
      · simp only [List.mem_cons, List.not_mem_nil, or_false, not_or]
        exact ⟨hByte _ (by omega), hByte _ (by omega), hByte _ (by omega)⟩
      · simp only [List.mem_cons, List.not_mem_nil, or_false, not_or]
        exact ⟨hByte _ (by omega), hByte _ (by omega), hByte _ (by omega), hByte _ (by omega)⟩

theorem zero_not_mem_utf8 {s : String} (h : '\x00' ∉ s.toList) : 0 ∉ utf8 s := by
  rw [utf8_eq, List.mem_flatMap]
  rintro ⟨c, hc, hZero⟩
  refine zero_not_mem_utf8EncodeChar ?_ hZero
  rintro rfl
  exact h hc

/-- A string: its length with the final zero, its bytes and the zero. -/
def string (s : String) : List UInt8 := le 4 ((utf8 s).length + 1) ++ (utf8 s ++ [0])

theorem length_string (s : String) : (string s).length = 4 + ((utf8 s).length + 1) := by simp [string]

/-! ## Alignment -/

def padding (length : ℕ) : List UInt8 := List.replicate ((4 - length % 4) % 4) 0

/-- A stream that is ready for a field of four bytes. -/
def align (stream : List UInt8) : List UInt8 := stream ++ padding stream.length

theorem length_padding (length : ℕ) : (padding length).length = (4 - length % 4) % 4 := List.length_replicate

end RoveMapping.Cdr
