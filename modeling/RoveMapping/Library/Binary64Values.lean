import RoveMapping.Library.Binary64
import RoveMapping.Library.RoundedFloat
import Mathlib

/-! # The values of binary64

`Float` compares the numbers that its finite values stand for, its differences are the exact ones rounded
once, and its conversion to an unsigned integer takes the integer part.
-/
namespace Binary64
open Float.Model
open Float.Model.UnpackedFloat (Sign packComponents)
open RoundedFloat NearestEven
set_option autoImplicit false

/-! ## Packing keeps the value -/

theorem minExponent_eq : Format.binary64.minExponent = -1074 := rfl

theorem bias_eq : ((Format.binary64.exponentBias : ℕ) : ℤ) + (Format.binary64.mantissaBitsWithoutImplicit : ℕ) = 1075 := rfl

/-- What a packed float can hold. -/
structure Fits (mantissa : ℕ) (exponent : ℤ) : Prop where
  mantissa_lt : mantissa < 2 ^ 53
  least : -1074 ≤ exponent
  full : -1074 < exponent → 2 ^ 52 ≤ mantissa
  most : exponent ≤ 971

theorem toNat_one_append {w : ℕ} (bits : BitVec w) : (1#1 ++ bits).toNat = 2 ^ w + bits.toNat := by
  rw [BitVec.toNat_append, ← Nat.shiftLeft_add_eq_or_of_lt bits.isLt, Nat.shiftLeft_eq]
  simp

theorem fits_unpack (bits : BitVec Format.binary64.numBits) {sign : Sign} {mantissa : ℕ} {exponent : ℤ} {hPos : 0 < mantissa}
    (h : UnpackedFloat.unpack .binary64 bits = .finite sign mantissa exponent hPos) : Fits mantissa exponent := by
  unfold UnpackedFloat.unpack at h
  dsimp only at h
  rw [bias_eq] at h
  have he : (UnpackedFloat.unpackExponent bits).toNat < 2 ^ 11 := BitVec.isLt _
  have hm : (UnpackedFloat.unpackMantissa bits).toNat < 2 ^ 52 := BitVec.isLt _
  split at h
  · split at h <;> cases h
  · rename_i hTop
    have hTop : (UnpackedFloat.unpackExponent bits).toNat ≠ 2047 := fun hAll => hTop (BitVec.eq_of_toNat_eq hAll)
    split at h
    · rename_i hBottom
      split at h
      · cases h
      · cases h
        have hZero : (0#11).toNat = 0 := rfl
        rw [hBottom, hZero]
        constructor
        · omega
        · decide
        · exact fun hMore => absurd hMore (by decide)
        · decide
    · rename_i hBottom
      have hBottom : (UnpackedFloat.unpackExponent bits).toNat ≠ 0 := fun hNone => hBottom (BitVec.eq_of_toNat_eq hNone)
      have hUnit : 2 ^ Format.binary64.mantissaBitsWithoutImplicit = 2 ^ 52 := rfl
      cases h
      rw [toNat_one_append, hUnit]
      constructor
      · omega
      · omega
      · omega
      · omega

theorem Fits.canonical {sign : Sign} {mantissa : ℕ} {exponent : ℤ} {hPos : 0 < mantissa} (h : Fits mantissa exponent) :
    Canonical .binary64 (.finite sign mantissa exponent hPos) :=
  ⟨h.mantissa_lt, h.least, h.full⟩

theorem canonical_unpack (bits : BitVec Format.binary64.numBits) : Canonical .binary64 (.unpack .binary64 bits) := by
  cases hUnpack : UnpackedFloat.unpack .binary64 bits with
  | finite sign mantissa exponent hPos => exact (fits_unpack bits hUnpack).canonical
  | notANumber | infinity | zero => trivial

theorem log2_eq {mantissa : ℕ} (hLow : 2 ^ 52 ≤ mantissa) (hHigh : mantissa < 2 ^ 53) : mantissa.log2 = 52 := by
  have hPos : mantissa ≠ 0 := by omega
  have hAtLeast := (Nat.le_log2 hPos).mpr hLow
  have hAtMost := (Nat.log2_lt hPos).mpr hHigh
  omega

theorem finite_congr {sign sign' : Sign} {mantissa mantissa' : ℕ} {exponent exponent' : ℤ} {hPos : 0 < mantissa}
    {hPos' : 0 < mantissa'} (hSign : sign = sign') (hMantissa : mantissa = mantissa') (hExponent : exponent = exponent') :
    UnpackedFloat.finite sign mantissa exponent hPos = .finite sign' mantissa' exponent' hPos' := by
  subst hSign hMantissa hExponent
  rfl

theorem pack_finite {sign : Sign} {mantissa : ℕ} {exponent : ℤ} {hPos : 0 < mantissa} (hMost : exponent ≤ 971) :
    UnpackedFloat.pack .binary64 (.finite sign mantissa exponent hPos) =
      if mantissa.log2 + 1 = 53 then packComponents .binary64 sign (.ofNat _ (exponent + 1075).toNat) (.ofNat _ mantissa)
      else packComponents .binary64 sign 0#11 (.ofNat _ mantissa) := by
  have hExponents : 2 ^ Format.binary64.exponentBits = 2048 := rfl
  have hDigits : Format.binary64.mantissaBits = 53 := rfl
  unfold UnpackedFloat.pack
  dsimp only
  rw [add_assoc, bias_eq, hExponents, hDigits, if_neg (by omega)]

theorem unpack_normal {sign : Sign} {mantissa : ℕ} {exponent : ℤ} (hPos : 0 < mantissa) (h : Fits mantissa exponent)
    (hNormal : 2 ^ 52 ≤ mantissa) : UnpackedFloat.unpack .binary64 (packComponents .binary64 sign
      (.ofNat _ (exponent + 1075).toNat) (.ofNat _ mantissa)) = .finite sign mantissa exponent hPos := by
  obtain ⟨hMantissa, hLeast, -, hMost⟩ := h
  have hBits : (BitVec.ofNat Format.binary64.exponentBits (exponent + 1075).toNat).toNat = (exponent + 1075).toNat := by
    have hExponents : 2 ^ Format.binary64.exponentBits = 2048 := rfl
    rw [BitVec.toNat_ofNat, hExponents, Nat.mod_eq_of_lt (by omega)]
  unfold UnpackedFloat.unpack
  simp only [UnpackedFloat.unpackExponent_packComponents, UnpackedFloat.unpackMantissa_packComponents,
    unpackSign_components]
  rw [if_neg, if_neg]
  · apply finite_congr
    · rfl
    · have hUnit : 2 ^ Format.binary64.mantissaBitsWithoutImplicit = 2 ^ 52 := rfl
      rw [toNat_one_append, BitVec.toNat_ofNat, hUnit]
      omega
    · rw [bias_eq, hBits]
      omega
  · intro hNone
    have hNat := congrArg BitVec.toNat hNone
    rw [hBits] at hNat
    change _ = 0 at hNat
    omega
  · intro hAll
    have hNat := congrArg BitVec.toNat hAll
    rw [hBits] at hNat
    change _ = 2047 at hNat
    omega

theorem unpack_subnormal {sign : Sign} {mantissa : ℕ} (hPos : 0 < mantissa) (h : mantissa < 2 ^ 52) :
    UnpackedFloat.unpack .binary64 (packComponents .binary64 sign 0#11 (.ofNat _ mantissa)) =
      .finite sign mantissa (-1074) hPos := by
  have hBits : (BitVec.ofNat Format.binary64.mantissaBitsWithoutImplicit mantissa).toNat = mantissa := by
    have hUnit : 2 ^ Format.binary64.mantissaBitsWithoutImplicit = 2 ^ 52 := rfl
    rw [BitVec.toNat_ofNat, hUnit, Nat.mod_eq_of_lt h]
  unfold UnpackedFloat.unpack
  simp only [UnpackedFloat.unpackExponent_packComponents, UnpackedFloat.unpackMantissa_packComponents,
    unpackSign_components]
  rw [if_neg (by decide), if_pos trivial, dif_neg]
  · exact finite_congr rfl hBits rfl
  · intro hNone
    have hNat := congrArg BitVec.toNat hNone
    rw [hBits] at hNat
    change _ = 0 at hNat
    omega

theorem unpack_pack {sign : Sign} {mantissa : ℕ} {exponent : ℤ} (hPos : 0 < mantissa) (h : Fits mantissa exponent) :
    UnpackedFloat.unpack .binary64 (UnpackedFloat.pack .binary64 (.finite sign mantissa exponent hPos)) =
      .finite sign mantissa exponent hPos := by
  rw [pack_finite h.most]
  by_cases hNormal : 2 ^ 52 ≤ mantissa
  · rw [log2_eq hNormal h.mantissa_lt, if_pos rfl, unpack_normal hPos h hNormal]
  · have hLeast := h.least
    obtain rfl : exponent = -1074 := by
      have hFull := h.full
      omega
    have hLog : mantissa.log2 < 52 := (Nat.log2_lt hPos.ne').mpr (by omega)
    rw [if_neg (by omega), unpack_subnormal hPos (by omega)]

/-- Only what is 2¹⁰²⁴ or more does not fit. -/
theorem unpack_pack_of_small {u : UnpackedFloat} (hFinite : u.isFinite = true) (hCanonical : Canonical .binary64 u)
    (hSmall : |value u| < 2 ^ (1024 : ℤ)) : (Float.Model.pack u).unpack = u := by
  cases u with
  | notANumber | infinity => cases hFinite
  | zero sign => exact unpack_zero sign
  | finite sign mantissa exponent hPos =>
    obtain ⟨hMantissa, hLeast, hFull⟩ := hCanonical
    refine unpack_pack hPos ⟨hMantissa, hLeast, hFull, ?_⟩
    by_contra hLarge
    have hRat : (0 : ℚ) < mantissa := by exact_mod_cast hPos
    have hValue : |value (.finite sign mantissa exponent hPos)| = mantissa * 2 ^ exponent := by
      have hProduct : (0 : ℚ) < mantissa * 2 ^ exponent := by positivity
      have hSign : |((sign.apply 1 : ℤ) : ℚ)| = 1 := by cases sign <;> decide
      rw [value, apply_eq]
      push_cast
      rw [mul_assoc, abs_mul, hSign, one_mul, abs_of_pos hProduct]
    have hTop : (2 ^ 52 : ℚ) ≤ mantissa := by
      have hNat : 2 ^ 52 ≤ mantissa := hFull (by rw [minExponent_eq]; omega)
      exact_mod_cast hNat
    rw [hValue] at hSmall
    have hBound : (2 : ℚ) ^ (1024 : ℤ) ≤ mantissa * 2 ^ exponent := by
      calc (2 : ℚ) ^ (1024 : ℤ)
        _ = 2 ^ 52 * 2 ^ (972 : ℤ) := by
          rw [← zpow_natCast, ← zpow_add₀ two_ne_zero]
          rfl
        _ ≤ mantissa * 2 ^ exponent := by
          have hPower : (2 : ℚ) ^ (972 : ℤ) ≤ 2 ^ exponent := zpow_le_zpow_right₀ (by norm_num) (by omega)
          gcongr
    exact absurd hSmall (not_lt.mpr hBound)

/-! ## The order -/

/-- The greater exponent decides, as its mantissa fills the format. -/
theorem value_lt_of_exponent_lt {mantissa mantissa' : ℕ} {exponent exponent' : ℤ} (h : Fits mantissa exponent)
    (h' : Fits mantissa' exponent') (hLt : exponent < exponent') :
    (mantissa : ℚ) * 2 ^ exponent < mantissa' * 2 ^ exponent' := by
  have hLeast := h.least
  have hFull : (2 ^ 52 : ℚ) ≤ mantissa' := by exact_mod_cast h'.full (by omega)
  have hMantissa : (mantissa : ℚ) < 2 ^ 53 := by exact_mod_cast h.mantissa_lt
  calc (mantissa : ℚ) * 2 ^ exponent
    _ < 2 ^ 53 * 2 ^ exponent := by gcongr
    _ = 2 ^ 52 * 2 ^ (exponent + 1) := by
      rw [zpow_add_one₀ two_ne_zero]
      ring
    _ ≤ mantissa' * 2 ^ exponent' := by
      have hPower : (2 : ℚ) ^ (exponent + 1) ≤ 2 ^ exponent' := zpow_le_zpow_right₀ (by norm_num) (by omega)
      gcongr

theorem compare_positive {mantissa mantissa' : ℕ} {exponent exponent' : ℤ} (h : Fits mantissa exponent)
    (h' : Fits mantissa' exponent') : (compare exponent exponent').then (compare mantissa mantissa') =
      compare ((mantissa : ℚ) * 2 ^ exponent) (mantissa' * 2 ^ exponent') := by
  rcases lt_trichotomy exponent exponent' with hLt | rfl | hGt
  · rw [compare_lt_iff_lt.mpr hLt, compare_lt_iff_lt.mpr (value_lt_of_exponent_lt h h' hLt)]
    rfl
  · have hPower : (0 : ℚ) < 2 ^ exponent := by positivity
    rw [compare_eq_iff_eq.mpr rfl]
    change compare mantissa mantissa' = _
    rcases lt_trichotomy mantissa mantissa' with hLt | rfl | hGt
    · have hRat : (mantissa : ℚ) < mantissa' := by exact_mod_cast hLt
      rw [compare_lt_iff_lt.mpr hLt, compare_lt_iff_lt.mpr (by gcongr)]
    · rw [compare_eq_iff_eq.mpr rfl, compare_eq_iff_eq.mpr rfl]
    · have hRat : (mantissa' : ℚ) < mantissa := by exact_mod_cast hGt
      rw [compare_gt_iff_gt.mpr hGt, compare_gt_iff_gt.mpr (by gcongr)]
  · rw [compare_gt_iff_gt.mpr hGt, compare_gt_iff_gt.mpr (value_lt_of_exponent_lt h' h hGt)]
    rfl
theorem value_pos {mantissa : ℕ} {exponent : ℤ} {hPos : 0 < mantissa} :
    0 < value (.finite .positive mantissa exponent hPos) := by
  have hRat : (0 : ℚ) < mantissa := by exact_mod_cast hPos
  change 0 < ((mantissa : ℤ) : ℚ) * 2 ^ exponent
  push_cast
  positivity

theorem value_negative {mantissa : ℕ} {exponent : ℤ} {hPos : 0 < mantissa} :
    value (.finite .negative mantissa exponent hPos) = -(mantissa * 2 ^ exponent) := by
  change ((-(mantissa : ℤ) : ℤ) : ℚ) * 2 ^ exponent = _
  push_cast
  ring

theorem value_neg {mantissa : ℕ} {exponent : ℤ} {hPos : 0 < mantissa} :
    value (.finite .negative mantissa exponent hPos) < 0 := by
  have hRat : (0 : ℚ) < mantissa := by exact_mod_cast hPos
  rw [value_negative]
  exact neg_lt_zero.mpr (by positivity)

theorem compare_neg (a b : ℚ) : compare (-a) (-b) = (compare a b).swap := by
  rcases lt_trichotomy a b with hLt | rfl | hGt
  · rw [compare_lt_iff_lt.mpr hLt, compare_gt_iff_gt.mpr (neg_lt_neg hLt)]
    rfl
  · rw [compare_eq_iff_eq.mpr rfl, compare_eq_iff_eq.mpr rfl]
    rfl
  · rw [compare_gt_iff_gt.mpr hGt, compare_lt_iff_lt.mpr (neg_lt_neg hGt)]
    rfl

theorem compare_unpack {bits bits' : BitVec Format.binary64.numBits}
    (h : (UnpackedFloat.unpack .binary64 bits).isFinite = true) (h' : (UnpackedFloat.unpack .binary64 bits').isFinite = true) :
    (UnpackedFloat.unpack .binary64 bits).compare (.unpack .binary64 bits') =
      some (compare (value (.unpack .binary64 bits)) (value (.unpack .binary64 bits'))) := by
  have hFits := @fits_unpack bits
  have hFits' := @fits_unpack bits'
  generalize UnpackedFloat.unpack .binary64 bits = u at h hFits
  generalize UnpackedFloat.unpack .binary64 bits' = v at h' hFits'
  have hZero (sign : Sign) : value (.zero sign) = 0 := rfl
  rcases u with _ | _ | sign | ⟨sign, mantissa, exponent, hPos⟩
  · cases h
  · cases h
  · rcases v with _ | _ | sign' | ⟨sign', mantissa', exponent', hPos'⟩
    · cases h'
    · cases h'
    · rw [hZero, hZero, compare_eq_iff_eq.mpr rfl]
      rfl
    · cases sign' with
      | negative =>
        rw [hZero, compare_gt_iff_gt.mpr value_neg]
        rfl
      | positive =>
        rw [hZero, compare_lt_iff_lt.mpr value_pos]
        rfl
  · have hLeft := hFits rfl
    rcases v with _ | _ | sign' | ⟨sign', mantissa', exponent', hPos'⟩
    · cases h'
    · cases h'
    · cases sign with
      | negative =>
        rw [hZero, compare_lt_iff_lt.mpr value_neg]
        rfl
      | positive =>
        rw [hZero, compare_gt_iff_gt.mpr value_pos]
        rfl
    · have hRight := hFits' rfl
      cases sign with
      | negative =>
        cases sign' with
        | negative =>
          have hOrder := compare_positive hLeft hRight
          rw [value_negative, value_negative, compare_neg, ← hOrder]
          rfl
        | positive =>
          rw [compare_lt_iff_lt.mpr (value_neg.trans value_pos)]
          rfl
      | positive =>
        cases sign' with
        | negative =>
          rw [compare_gt_iff_gt.mpr (value_neg.trans value_pos)]
          rfl
        | positive => exact congrArg some (compare_positive hLeft hRight)

/-! ## `Float` -/

section Float
variable {x y : Float}

theorem toRat_eq (x : Float) : toRat x = value x.toModel.unpack := by
  unfold toRat
  cases x.toModel.unpack <;> rfl

theorem compare_eq (hx : x.isFinite = true) (hy : y.isFinite = true) :
    x.toModel.unpack.compare y.toModel.unpack = some (compare (toRat x) (toRat y)) := by
  rw [toRat_eq, toRat_eq]
  exact compare_unpack hx hy

theorem le_iff_toRat (hx : x.isFinite = true) (hy : y.isFinite = true) : x ≤ y ↔ toRat x ≤ toRat y := by
  rw [le_iff, UnpackedFloat.le, compare_eq hx hy]
  exact Std.LawfulBCmp.isLE_iff_le

theorem lt_iff_toRat (hx : x.isFinite = true) (hy : y.isFinite = true) : x < y ↔ toRat x < toRat y := by
  rw [lt_iff, UnpackedFloat.lt, compare_eq hx hy, ← compare_lt_iff_lt]
  exact beq_iff_eq.trans (Option.some_inj)

/-- The difference of two numbers, rounded to a number of 53 digits. -/
def difference (x y : Float) : ℚ := rounded 53 (-1074) (toRat x - toRat y)

theorem sub_spec (hx : x.isFinite = true) (hy : y.isFinite = true) (hSmall : |difference x y| < 2 ^ (1024 : ℤ)) :
    (x - y).isFinite = true ∧ toRat (x - y) = difference x y := by
  obtain ⟨hFinite, hCanonical, hValue⟩ := RoundedFloat.sub_spec hx hy (canonical_unpack _) (canonical_unpack _)
  have hDifference : value (UnpackedFloat.sub .binary64 x.toModel.unpack y.toModel.unpack) = difference x y := by
    rw [difference, toRat_eq, toRat_eq]
    exact hValue
  rw [← hDifference] at hSmall
  have hUnpack : (x - y).toModel.unpack = UnpackedFloat.sub .binary64 x.toModel.unpack y.toModel.unpack :=
    unpack_pack_of_small hFinite hCanonical hSmall
  constructor
  · change (x - y).toModel.unpack.isFinite = true
    rw [hUnpack]
    exact hFinite
  · rw [toRat_eq, hUnpack, hDifference]

/-- All values are multiples of the smallest one. -/
theorem toRat_multiple (x : Float) : ∃ n : ℤ, toRat x = n * 2 ^ (-1074 : ℤ) := by
  rw [toRat_eq]
  have hFits := @fits_unpack x.toModel.toBits.toBitVec
  change ∀ {sign : Sign} {mantissa : ℕ} {exponent : ℤ} {hPos : 0 < mantissa},
    x.toModel.unpack = .finite sign mantissa exponent hPos → Fits mantissa exponent at hFits
  cases hUnpack : x.toModel.unpack with
  | notANumber | infinity | zero => exact ⟨0, by simp [value]⟩
  | finite sign mantissa exponent hPos =>
    have hLeast := (hFits hUnpack).least
    obtain ⟨d, hExponent⟩ := Int.le.dest hLeast
    refine ⟨sign.apply mantissa * 2 ^ d, ?_⟩
    rw [value, ← hExponent, add_comm, zpow_add₀ two_ne_zero, zpow_natCast, Int.cast_mul, Int.cast_pow, Int.cast_two,
      mul_assoc]

/-- Rounding does not hide which of two numbers is the greater one. -/
theorem difference_nonneg_iff : 0 ≤ difference x y ↔ toRat y ≤ toRat x := by
  obtain ⟨n, hx⟩ := toRat_multiple x
  obtain ⟨n', hy⟩ := toRat_multiple y
  have hDifference : toRat x - toRat y = (n - n' : ℤ) * 2 ^ (-1074 : ℤ) := by
    rw [hx, hy, Int.cast_sub, sub_mul]
  rw [difference, hDifference, rounded_nonneg_iff (by norm_num), ← hDifference, sub_nonneg]

theorem difference_mono {x' : Float} (h : toRat x ≤ toRat x') : difference x y ≤ difference x' y :=
  rounded_mono (-1074) (by norm_num) (by linarith)

theorem difference_lt_zpow_iff {k : ℤ} (hPlace : -1074 ≤ k - 53) (h : toRat y ≤ toRat x) :
    difference x y < 2 ^ k ↔ toRat x - toRat y < 2 ^ k - 2 ^ (k - 54) := by
  rw [difference, rounded, if_neg (by linarith)]
  rcases h.eq_or_lt with hSame | hLess
  · have hStep : (2 : ℚ) ^ (k - 54) < 2 ^ k := zpow_lt_zpow_right₀ (by norm_num) (by omega)
    have hPower : (0 : ℚ) < 2 ^ k := by positivity
    rw [hSame, sub_self, magnitude_zero]
    constructor
    · intro _
      linarith
    · exact fun _ => hPower
  · have hPrecision : 0 < 53 := by norm_num
    rw [magnitude_lt_zpow_iff hPrecision hPlace (sub_pos.mpr hLess), show k - (53 : ℕ) - 1 = k - 54 by omega]

theorem rounded_zpow {k : ℤ} (hPlace : -1074 ≤ k) : rounded 53 (-1074) (2 ^ k) = 2 ^ k := by
  have hPower : (0 : ℚ) < 2 ^ k := by positivity
  rw [rounded, if_neg (not_lt.mpr hPower.le), magnitude_zpow (by norm_num) hPlace]

theorem rounded_neg (q : ℚ) : rounded 53 (-1074) (-q) = -rounded 53 (-1074) q := by
  rcases lt_trichotomy q 0 with h | rfl | h
  · rw [rounded, rounded, if_neg (by linarith), if_pos h, neg_neg]
  · rw [neg_zero, rounded, if_neg (lt_irrefl 0), magnitude_zero, neg_zero]
  · rw [rounded, rounded, if_pos (by linarith), if_neg (by linarith), neg_neg]

/-- Rounding does not leave the powers of two between which a number is. -/
theorem abs_rounded_le {q : ℚ} {k : ℤ} (hPlace : -1074 ≤ k) (h : |q| ≤ 2 ^ k) : |rounded 53 (-1074) q| ≤ 2 ^ k := by
  obtain ⟨hLow, hHigh⟩ := abs_le.mp h
  have hPrecision : 0 < 53 := by norm_num
  have hRoundedLow := rounded_mono (-1074) hPrecision hLow
  have hRoundedHigh := rounded_mono (-1074) hPrecision hHigh
  rw [rounded_neg, rounded_zpow hPlace] at hRoundedLow
  rw [rounded_zpow hPlace] at hRoundedHigh
  exact abs_le.mpr ⟨hRoundedLow, hRoundedHigh⟩

/-- Rounding does not go below a power of two. -/
theorem le_rounded {q : ℚ} {k : ℤ} (hPlace : -1074 ≤ k) (h : 2 ^ k ≤ q) : 2 ^ k ≤ rounded 53 (-1074) q := by
  have hMono := rounded_mono (-1074) (show 0 < 53 by norm_num) h
  rwa [rounded_zpow hPlace] at hMono

theorem le_abs_rounded {q : ℚ} {k : ℤ} (hPlace : -1074 ≤ k) (h : 2 ^ k ≤ |q|) : 2 ^ k ≤ |rounded 53 (-1074) q| := by
  rcases abs_cases q with ⟨hAbs, -⟩ | ⟨hAbs, -⟩
  · rw [hAbs] at h
    exact (le_rounded hPlace h).trans (le_abs_self _)
  · rw [hAbs] at h
    rw [← abs_neg, ← rounded_neg]
    exact (le_rounded hPlace h).trans (le_abs_self _)

/-! ## Whole numbers -/

theorem roundToInt_eq (sign : Sign) (mantissa : ℕ) (exponent : ℤ) :
    UnpackedFloat.roundToInt sign mantissa exponent = sign.apply ⌊(mantissa : ℚ) * 2 ^ exponent⌋ := by
  obtain ⟨hValue, hExponent⟩ := decreaseExponent_spec mantissa exponent 0
  unfold UnpackedFloat.roundToInt UnpackedFloat.shiftToExponent
  dsimp only
  rw [← hValue, hExponent]
  have hDigits : ((UnpackedFloat.decreaseExponent mantissa exponent 0).1 : ℚ) * 2 ^ min exponent 0 =
      (UnpackedFloat.decreaseExponent mantissa exponent 0).1 / 2 ^ (0 - min exponent 0).toNat := by
    have hPower : ((0 - min exponent 0).toNat : ℤ) = -min exponent 0 := by omega
    rw [← zpow_natCast, hPower, zpow_neg, div_inv_eq_mul]
  have hShifts := (Represents.exact (UnpackedFloat.decreaseExponent mantissa exponent 0).1).shifts
    (0 - min exponent 0).toNat
  rw [hDigits, hShifts.floor]
  rfl

theorem toNat_ofNatClamp {n : ℕ} (h : n < 2 ^ 32) : (UInt32.ofNatClamp n).toNat = n := by
  rw [UInt32.ofNatClamp, dif_pos (show n < UInt32.size from h)]
  exact UInt32.toNat_ofNatLT

/-- `static_cast<uint32_t>(x)` takes the integer part. -/
theorem toNat_toUInt32 (hx : x.isFinite = true) (hNonneg : 0 ≤ toRat x) (hBelow : toRat x < 2 ^ 32) :
    (x.toUInt32.toNat : ℤ) = ⌊toRat x⌋ := by
  have hFloor : (x.toModel.unpack.toInt 0 (UInt32.size - 1)) = ⌊toRat x⌋ := by
    have hFinite : x.toModel.unpack.isFinite = true := hx
    rw [toRat_eq] at hNonneg ⊢
    cases hUnpack : x.toModel.unpack with
    | notANumber | infinity =>
      rw [hUnpack] at hFinite
      cases hFinite
    | zero sign => exact Int.floor_zero.symm
    | finite sign mantissa exponent hPos =>
      rw [hUnpack] at hNonneg
      cases sign with
      | negative => exact absurd hNonneg (not_le.mpr value_neg)
      | positive => exact roundToInt_eq .positive mantissa exponent
  have hLow : 0 ≤ ⌊toRat x⌋ := Int.floor_nonneg.mpr hNonneg
  have hHigh : ⌊toRat x⌋ < 2 ^ 32 := by
    rw [Int.floor_lt]
    exact_mod_cast hBelow
  change ((UInt32.ofNatClamp (x.toModel.unpack.toInt 0 (UInt32.size - 1)).toNat).toNat : ℤ) = _
  rw [hFloor, toNat_ofNatClamp (by omega), Int.toNat_of_nonneg hLow]

/-- Every `uint32_t` is a `double`. -/
theorem toFloat_spec (n : UInt32) : n.toFloat.isFinite = true ∧ toRat n.toFloat = n.toNat := by
  obtain ⟨hFinite, hCanonical, hValue⟩ := normalize_spec .binary64 n.toNat 0 .positive
  have hBelow := n.toNat_lt
  have hPlace : place 53 (-1074) (((n.toNat : ℤ) : ℚ) * 2 ^ (0 : ℤ)) ≤ 0 := by
    have hLog : Nat.log 2 n.toNat < 33 := Nat.log_lt_of_lt_pow' (by norm_num) (by omega)
    rw [zpow_zero, mul_one, Int.cast_natCast, place, Int.log_natCast]
    omega
  have hNonneg : ¬((n.toNat : ℤ) : ℚ) * 2 ^ (0 : ℤ) < 0 := not_lt.mpr (by positivity)
  have hExact : value (UnpackedFloat.normalize .binary64 n.toNat 0 .positive) = n.toNat := by
    rw [hValue, rounded, if_neg hNonneg]
    refine (magnitude_of_multiple hPlace).trans ?_
    rw [zpow_zero, mul_one, Int.cast_natCast]
  have hUnpack : n.toFloat.toModel.unpack = UnpackedFloat.normalize .binary64 n.toNat 0 .positive := by
    apply unpack_pack_of_small hFinite hCanonical
    have hTop : (2 : ℚ) ^ (32 : ℤ) ≤ 2 ^ (1024 : ℤ) := zpow_le_zpow_right₀ (by norm_num) (by decide)
    have hNumber : (n.toNat : ℚ) < 2 ^ (32 : ℤ) := by exact_mod_cast hBelow
    rw [hExact, abs_of_nonneg (Nat.cast_nonneg _)]
    exact hNumber.trans_le hTop
  constructor
  · change n.toFloat.toModel.unpack.isFinite = true
    rw [hUnpack]
    exact hFinite
  · rw [toRat_eq, hUnpack, hExact]

theorem magnitude_natCast {n : ℕ} (h : n < 2 ^ 53) : magnitude 53 (-1074) (n : ℚ) = n := by
  have hPlace : place 53 (-1074) (((n : ℤ) : ℚ) * 2 ^ (0 : ℤ)) ≤ 0 := by
    have hLog : Nat.log 2 n < 53 := Nat.log_lt_of_lt_pow' (by norm_num) h
    rw [zpow_zero, mul_one, Int.cast_natCast, place, Int.log_natCast]
    omega
  have hExact := magnitude_of_multiple hPlace
  rwa [zpow_zero, mul_one, Int.cast_natCast] at hExact

/-- The bits of a number are those of no other one. -/
theorem toRat_ofBits (hx : x.isFinite = true) :
    (Float.ofBits x.toBits).isFinite = true ∧ toRat (Float.ofBits x.toBits) = toRat x := by
  have hUnpack : (Float.ofBits x.toBits).toModel.unpack = x.toModel.unpack := by
    show (Float.Model.pack x.toModel.unpack).unpack = x.toModel.unpack
    have hFinite : x.toModel.unpack.isFinite = true := hx
    cases hBits : x.toModel.unpack with
    | notANumber | infinity =>
      rw [hBits] at hFinite
      cases hFinite
    | zero sign => exact unpack_zero sign
    | finite sign mantissa exponent hPos => exact unpack_pack hPos (fits_unpack _ hBits)
  constructor
  · change (Float.ofBits x.toBits).toModel.unpack.isFinite = true
    rw [hUnpack]
    exact hx
  · rw [toRat_eq, toRat_eq, hUnpack]

/-- A `uint64_t` becomes the nearest `double`. -/
theorem toFloat_spec_uint64 (n : UInt64) :
    n.toFloat.isFinite = true ∧ toRat n.toFloat = magnitude 53 (-1074) n.toNat := by
  obtain ⟨hFinite, hCanonical, hValue⟩ := normalize_spec .binary64 n.toNat 0 .positive
  have hNonneg : ¬((n.toNat : ℤ) : ℚ) * 2 ^ (0 : ℤ) < 0 := not_lt.mpr (by positivity)
  have hMagnitude : value (UnpackedFloat.normalize .binary64 n.toNat 0 .positive) = magnitude 53 (-1074) n.toNat := by
    rw [hValue, rounded, if_neg hNonneg, zpow_zero, mul_one, Int.cast_natCast]
    rfl
  have hUnpack : n.toFloat.toModel.unpack = UnpackedFloat.normalize .binary64 n.toNat 0 .positive := by
    apply unpack_pack_of_small hFinite hCanonical
    have hBelow : (n.toNat : ℚ) ≤ ((1 : ℤ) : ℚ) * 2 ^ (64 : ℤ) := by
      have hLt : (n.toNat : ℚ) < 2 ^ 64 := by exact_mod_cast n.toNat_lt
      rw [Int.cast_one, one_mul]
      exact_mod_cast hLt.le
    have hPlace : place 53 (-1074) (n.toNat : ℚ) ≤ 64 := by
      have hLog : Nat.log 2 n.toNat < 65 := Nat.log_lt_of_lt_pow' (by norm_num) (n.toNat_lt.trans (by norm_num))
      rw [place, Int.log_natCast]
      omega
    have hTop : ((1 : ℤ) : ℚ) * 2 ^ (64 : ℤ) < 2 ^ (1024 : ℤ) := by
      rw [Int.cast_one, one_mul]
      exact zpow_lt_zpow_right₀ (by norm_num) (by decide)
    rw [hMagnitude, abs_of_nonneg (magnitude_nonneg 53 (-1074) (Nat.cast_nonneg _))]
    exact (magnitude_le hPlace hBelow).trans_lt hTop
  constructor
  · change n.toFloat.toModel.unpack.isFinite = true
    rw [hUnpack]
    exact hFinite
  · rw [toRat_eq, hUnpack, hMagnitude]

end Float

end Binary64
