import Mathlib

/-! # Between binary64 and binary32

The conversion of a `double` to a `float`, rounding to nearest, ties to even, and the one back. A number is
not converted to a NaN, and what is too large becomes an infinity.
-/
namespace Binary32
open Float.Model
open Float.Model.UnpackedFloat (Sign packComponents)
set_option autoImplicit false

/-- Only a finite value other than zero is rounded. -/
def narrowed : UnpackedFloat → UnpackedFloat
  | .finite sign mantissa exponent _ => UnpackedFloat.round .binary32 sign mantissa exponent
  | u => u

/-- `static_cast<float>(x)` -/
def ofDouble (x : Float) : Float32 := .ofModel (Float32.Model.pack (narrowed x.toModel.unpack))

def widened : UnpackedFloat → UnpackedFloat
  | .finite sign mantissa exponent _ => UnpackedFloat.round .binary64 sign mantissa exponent
  | u => u

/-- `static_cast<double>(x)` -/
def toDouble (x : Float32) : Float := .ofModel (Float.Model.pack (widened x.toModel.unpack))

/-- The bits without the sign. -/
def magnitude (bits : UInt32) : UInt32 := bits &&& 0x7fffffff

theorem magnitude_components (sign : Sign) (exponent : BitVec Format.binary32.exponentBits)
    (mantissa : BitVec Format.binary32.mantissaBitsWithoutImplicit) :
    (magnitude (UInt32.ofBitVec (packComponents .binary32 sign exponent mantissa))).toNat =
      exponent.toNat * 2 ^ 23 + mantissa.toNat := by
  have hExponent : exponent.toNat < 2 ^ 8 := exponent.isLt
  have hMantissa : mantissa.toNat < 2 ^ 23 := mantissa.isLt
  have hMask : (0x7fffffff : UInt32).toNat = 2 ^ 31 - 1 := rfl
  have hBits : (packComponents .binary32 sign exponent mantissa).toNat =
      (sign.toBitVec.toNat * 2 ^ 8 + exponent.toNat) * 2 ^ 23 + mantissa.toNat := by
    unfold packComponents
    rw [BitVec.toNat_append, BitVec.toNat_append, ← Nat.shiftLeft_add_eq_or_of_lt hMantissa,
      ← Nat.shiftLeft_add_eq_or_of_lt hExponent, Nat.shiftLeft_eq, Nat.shiftLeft_eq]
  have hWord : (UInt32.ofBitVec (packComponents .binary32 sign exponent mantissa)).toNat =
      (packComponents .binary32 sign exponent mantissa).toNat := rfl
  rw [magnitude, UInt32.toNat_and, hMask, Nat.and_two_pow_sub_one_eq_mod, hWord, hBits]
  omega

theorem magnitude_components_le (sign : Sign) {exponent : BitVec Format.binary32.exponentBits}
    (mantissa : BitVec Format.binary32.mantissaBitsWithoutImplicit) (h : exponent.toNat ≤ 254) :
    (magnitude (UInt32.ofBitVec (packComponents .binary32 sign exponent mantissa))).toNat ≤ 255 * 2 ^ 23 := by
  have hMantissa : mantissa.toNat < 2 ^ 23 := mantissa.isLt
  rw [magnitude_components]
  omega

theorem magnitude_pack {u : UnpackedFloat} (h : u.isNaN = false) :
    magnitude (Float32.Model.pack u).toBits ≤ 0x7f800000 := by
  have hInfinity : (0x7f800000 : UInt32).toNat = 255 * 2 ^ 23 := rfl
  rw [UInt32.le_iff_toNat_le, hInfinity]
  cases u with
  | notANumber => cases h
  | infinity sign => exact (magnitude_components sign (-1#8) 0).le
  | zero sign => exact magnitude_components_le sign 0 (Nat.zero_le _)
  | finite sign mantissa exponent hPos =>
    unfold Float32.Model.pack UnpackedFloat.pack
    dsimp only
    split
    · exact (magnitude_components sign (-1#8) 0).le
    · rename_i hFits
      have hExponents : 2 ^ Format.binary32.exponentBits = 256 := rfl
      rw [hExponents] at hFits
      split
      · apply magnitude_components_le
        rw [BitVec.toNat_ofNat, hExponents, Nat.mod_eq_of_lt (by omega)]
        omega
      · exact magnitude_components_le sign _ (Nat.zero_le _)

theorem isNaN_round (sign : Sign) (mantissa : ℕ) (exponent : ℤ) :
    (UnpackedFloat.round .binary32 sign mantissa exponent).isNaN = false := by
  unfold UnpackedFloat.round UnpackedFloat.roundWithAccuracy
  dsimp only
  split <;> rfl

theorem isNaN_narrowed (u : UnpackedFloat) : (narrowed u).isNaN = u.isNaN := by
  cases u with
  | finite sign mantissa exponent hPos => exact isNaN_round sign mantissa exponent
  | notANumber | infinity | zero => rfl

theorem magnitude_ofDouble {x : Float} (h : x.isNaN = false) : magnitude (ofDouble x).toBits ≤ 0x7f800000 :=
  magnitude_pack ((isNaN_narrowed _).trans h)

end Binary32
