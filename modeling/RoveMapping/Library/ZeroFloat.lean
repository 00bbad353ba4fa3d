import RoveMapping.Library.FloatProducts

/-! # Zero in binary64

The root of a sum of squares is zero where all the numbers are, unless a square is below the least number.
-/
namespace Binary64
open Float.Model
open Float.Model.UnpackedFloat (Sign Accuracy)
open RoundedFloat NearestEven
set_option autoImplicit false

/-- Zero of either sign. -/
def IsZero : UnpackedFloat → Prop
  | .zero _ => True
  | _ => False

section Unpacked
variable {u v : UnpackedFloat}

theorem value_ne_zero {sign : Sign} {mantissa : ℕ} {exponent : ℤ} {hPos : 0 < mantissa} :
    value (.finite sign mantissa exponent hPos) ≠ 0 := by
  cases sign with
  | negative => exact value_neg.ne
  | positive => exact value_pos.ne'

theorem isZero_iff_value (h : u.isFinite = true) : IsZero u ↔ value u = 0 := by
  cases u with
  | notANumber | infinity => cases h
  | zero sign => exact iff_of_true trivial rfl
  | finite sign mantissa exponent hPos => exact iff_of_false id value_ne_zero

theorem isZero_pack_iff (h : Canonical .binary64 u) : IsZero (Float.Model.pack u).unpack ↔ IsZero u := by
  cases u with
  | notANumber => rw [unpack_pack_nan]
  | infinity sign => exact iff_of_eq (congrArg IsZero (unpack_infinity sign))
  | zero sign => exact iff_of_eq (congrArg IsZero (unpack_zero sign))
  | finite sign mantissa exponent hPos =>
    obtain ⟨hMantissa, hLeast, hFull⟩ := h
    by_cases hMost : exponent ≤ 971
    · exact iff_of_eq (congrArg IsZero (unpack_pack hPos ⟨hMantissa, hLeast, hFull, hMost⟩))
    · have hPack : UnpackedFloat.pack .binary64 (.finite sign mantissa exponent hPos) = UnpackedFloat.packedInfinity .binary64 sign := by
        have hExponents : 2 ^ Format.binary64.exponentBits = 2048 := rfl
        unfold UnpackedFloat.pack
        dsimp only
        rw [add_assoc, bias_eq, hExponents, if_pos (by omega)]
      have hUnpack : (Float.Model.pack (.finite sign mantissa exponent hPos)).unpack = .infinity sign :=
        (congrArg (UnpackedFloat.unpack .binary64) hPack).trans (unpack_infinity sign)
      rw [hUnpack]
      exact iff_of_false id id

/-- What is not below the least number is not rounded to zero. -/
theorem rounded_pos {q : ℚ} (h : 2 ^ (-1074 : ℤ) ≤ q) : 0 < rounded 53 (-1074) q :=
  (show (0 : ℚ) < 2 ^ (-1074 : ℤ) by positivity).trans_le (le_rounded le_rfl h)

theorem le_value {mantissa : ℕ} {exponent : ℤ} {hPos : 0 < mantissa}
    (h : Canonical .binary64 (.finite .positive mantissa exponent hPos)) :
    2 ^ (-1074 : ℤ) ≤ value (.finite .positive mantissa exponent hPos) := by
  have hLeast : -1074 ≤ exponent := h.2.1
  have hDigits : (1 : ℚ) ≤ mantissa := by exact_mod_cast hPos
  calc (2 : ℚ) ^ (-1074 : ℤ)
    _ ≤ 2 ^ exponent := zpow_le_zpow_right₀ (by norm_num) hLeast
    _ ≤ mantissa * 2 ^ exponent := le_mul_of_one_le_left (by positivity) hDigits
    _ = value (.finite .positive mantissa exponent hPos) := by
      rw [value_finite]
      exact (one_mul _).symm

/-! ## The operations before packing -/

theorem canonical_mul (hu : Canonical .binary64 u) (hv : Canonical .binary64 v) : Canonical .binary64 (.mul .binary64 u v) := by
  cases u <;> cases v <;> first | exact (RoundedFloat.mul_spec rfl rfl hu hv).2.1 | trivial

theorem isZero_mul_self_iff (h : Canonical .binary64 u) (hLeast : value u ≠ 0 → 2 ^ (-537 : ℤ) ≤ |value u|) :
    IsZero (.mul .binary64 u u) ↔ IsZero u := by
  cases u with
  | notANumber | infinity | zero => exact Iff.rfl
  | finite sign mantissa exponent hPos =>
    obtain ⟨hFinite, -, hValue⟩ := RoundedFloat.mul_spec rfl rfl h h
    rw [isZero_iff_value hFinite, hValue]
    refine iff_of_false (rounded_pos ?_).ne' id
    calc (2 : ℚ) ^ (-1074 : ℤ)
      _ = 2 ^ (-537 : ℤ) * 2 ^ (-537 : ℤ) := by rw [← zpow_add₀ two_ne_zero]; rfl
      _ ≤ |value (.finite sign mantissa exponent hPos)| * |value (.finite sign mantissa exponent hPos)| := by
        have hFactor := hLeast value_ne_zero
        gcongr
      _ = value (.finite sign mantissa exponent hPos) * value (.finite sign mantissa exponent hPos) := abs_mul_abs_self _

theorem canonical_neg (h : Canonical .binary64 u) : Canonical .binary64 u.neg := by
  cases u <;> exact h

/-- The sum is the exact one, rounded once. -/
theorem add_spec_unpacked (hu : u.isFinite = true) (hv : v.isFinite = true) (hCanonicalU : Canonical .binary64 u)
    (hCanonicalV : Canonical .binary64 v) :
    (UnpackedFloat.add .binary64 u v).isFinite = true ∧ Canonical .binary64 (.add .binary64 u v) ∧
      value (.add .binary64 u v) = rounded 53 (-1074) (value u + value v) := by
  have hSum : UnpackedFloat.add .binary64 u v = .sub .binary64 u v.neg := by
    cases u with
    | notANumber | infinity => cases hu
    | zero sign =>
      cases v with
      | notANumber | infinity => cases hv
      | zero sign' => cases sign <;> cases sign' <;> rfl
      | finite sign' => cases sign' <;> rfl
    | finite sign mantissa exponent hPos =>
      cases v with
      | notANumber | infinity => cases hv
      | zero => rfl
      | finite sign' =>
        unfold UnpackedFloat.add UnpackedFloat.sub UnpackedFloat.neg
        dsimp only
        rw [neg_apply, sub_neg_eq_add]
  have hFinite : v.neg.isFinite = true := by
    cases v <;> exact hv
  have hDifference := RoundedFloat.sub_spec hu hFinite hCanonicalU (canonical_neg hCanonicalV)
  rw [value_neg_unpacked, sub_neg_eq_add] at hDifference
  rw [hSum]
  exact hDifference

theorem canonical_add (hu : Canonical .binary64 u) (hv : Canonical .binary64 v) : Canonical .binary64 (.add .binary64 u v) := by
  cases u with
  | notANumber => trivial
  | infinity sign =>
    cases v with
    | infinity sign' => cases sign <;> cases sign' <;> trivial
    | notANumber | zero | finite => trivial
  | zero | finite =>
    cases v with
    | notANumber | infinity => trivial
    | zero | finite => exact (add_spec_unpacked rfl rfl hu hv).2.1

theorem isZero_add_iff (hu : Canonical .binary64 u) (hv : Canonical .binary64 v) (hLeft : NotNegative u)
    (hRight : NotNegative v) : IsZero (.add .binary64 u v) ↔ IsZero u ∧ IsZero v := by
  cases u with
  | notANumber => exact iff_of_false id And.left
  | infinity sign =>
    cases v with
    | infinity sign' => cases sign <;> cases sign' <;> exact iff_of_false id And.left
    | notANumber | zero | finite => exact iff_of_false id And.left
  | zero sign =>
    cases v with
    | zero sign' => cases sign <;> cases sign' <;> exact iff_of_true trivial ⟨trivial, trivial⟩
    | notANumber | infinity | finite => exact iff_of_false id And.right
  | finite sign mantissa exponent hPos =>
    cases v with
    | notANumber | infinity | zero => exact iff_of_false id And.left
    | finite sign' mantissa' exponent' hPos' =>
      cases sign with
      | negative => exact hLeft.elim
      | positive =>
        cases sign' with
        | negative => exact hRight.elim
        | positive =>
          obtain ⟨hFinite, -, hValue⟩ := add_spec_unpacked rfl rfl hu hv
          rw [isZero_iff_value hFinite, hValue]
          have hSecond := (show (0 : ℚ) < 2 ^ (-1074 : ℤ) by positivity).trans_le (le_value hv)
          exact iff_of_false (rounded_pos (le_add_of_le_of_nonneg (le_value hu) hSecond.le)).ne' And.left

theorem le_log2_sqrt {mantissa shift : ℕ} (hPos : 0 < mantissa) (h : 104 ≤ mantissa.log2 + shift) :
    52 ≤ (Nat.sqrt (mantissa <<< shift)).log2 := by
  have hDigits : 2 ^ 52 * 2 ^ 52 ≤ mantissa <<< shift := by
    calc 2 ^ 52 * 2 ^ 52
      _ = 2 ^ 104 := by norm_num
      _ ≤ 2 ^ (mantissa.log2 + shift) := Nat.pow_le_pow_right (by norm_num) h
      _ = 2 ^ mantissa.log2 * 2 ^ shift := pow_add ..
      _ ≤ mantissa * 2 ^ shift := Nat.mul_le_mul_right _ (Nat.log2_self_le hPos.ne')
      _ = mantissa <<< shift := (Nat.shiftLeft_eq ..).symm
  have hRoot : 2 ^ 52 ≤ Nat.sqrt (mantissa <<< shift) := Nat.le_sqrt.mpr hDigits
  have hRootPos : Nat.sqrt (mantissa <<< shift) ≠ 0 := by omega
  exact (Nat.le_log2 hRootPos).mpr hRoot

/-- The root has as many digits as the format, unless its last place is the least one. -/
theorem sqrtCore_spec {mantissa : ℕ} {exponent : ℤ} (hPos : 0 < mantissa) (hLeast : -1074 ≤ exponent) :
    0 < (UnpackedFloat.sqrtCore .binary64 mantissa exponent).1 ∧
      -1074 ≤ (UnpackedFloat.sqrtCore .binary64 mantissa exponent).2.1 ∧
      (-1074 < (UnpackedFloat.sqrtCore .binary64 mantissa exponent).2.1 →
        52 ≤ (UnpackedFloat.sqrtCore .binary64 mantissa exponent).1.log2) := by
  unfold UnpackedFloat.sqrtCore
  dsimp only
  have hTarget (total : ℤ) : Format.binary64.targetExponent total = max (total - 53) (-1074) := rfl
  rw [hTarget, totalExponent]
  have hHalf : exponent.ediv 2 = exponent / 2 := rfl
  have hHalfTotal : ((mantissa.log2 : ℤ) + 1 + exponent + 1).ediv 2 = ((mantissa.log2 : ℤ) + 1 + exponent + 1) / 2 := rfl
  rw [hHalf, hHalfTotal]
  refine ⟨Nat.sqrt_pos.mpr ?_, by omega, fun hMore => le_log2_sqrt hPos (by omega)⟩
  rw [Nat.shiftLeft_eq]
  positivity

/-- Whatever the accuracy tells behind the point, there is such a number. -/
theorem exists_approximates (mantissa : ℕ) (accuracy : Accuracy) : ∃ x : ℚ, Approximates mantissa accuracy x := by
  have hBits (roundBit stickyBit : Bool) (rest : ℚ) (hLow : 0 ≤ rest) (hHigh : rest < 1)
      (hRound : roundBit = true ↔ 1 / 2 ≤ rest) (hSticky : stickyBit = true ↔ rest ≠ 0 ∧ rest ≠ 1 / 2) :
      Represents ⟨mantissa, roundBit, stickyBit⟩ (mantissa + rest) := by
    constructor
    · exact le_add_of_nonneg_right hLow
    · exact (add_lt_add_iff_left _).mpr hHigh
    · rwa [add_sub_cancel_left]
    · rwa [add_sub_cancel_left]
  cases accuracy with
  | exact => exact ⟨mantissa, .exact mantissa⟩
  | inexact order =>
    cases order with
    | lt => exact ⟨_, hBits false true (1 / 4) (by norm_num) (by norm_num) (by norm_num) (by norm_num)⟩
    | eq => exact ⟨_, hBits true false (1 / 2) (by norm_num) (by norm_num) (by norm_num) (by norm_num)⟩
    | gt => exact ⟨_, hBits true true (3 / 4) (by norm_num) (by norm_num) (by norm_num) (by norm_num)⟩

theorem sqrt_spec_unpacked {mantissa : ℕ} {exponent : ℤ} {hPos : 0 < mantissa}
    (h : Canonical .binary64 (.finite .positive mantissa exponent hPos)) :
    Canonical .binary64 (.sqrt .binary64 (.finite .positive mantissa exponent hPos)) ∧
      ¬IsZero (.sqrt .binary64 (.finite .positive mantissa exponent hPos)) := by
  obtain ⟨hRoot, hLeast, hFull⟩ := sqrtCore_spec hPos h.2.1
  unfold UnpackedFloat.sqrt
  dsimp only
  generalize UnpackedFloat.sqrtCore .binary64 mantissa exponent = core at hRoot hLeast hFull ⊢
  obtain ⟨root, last, accuracy⟩ := core
  dsimp only at hRoot hLeast hFull ⊢
  obtain ⟨x, hx⟩ := exists_approximates root accuracy
  have hLow : 1 ≤ x := by
    have hDigits : (1 : ℚ) ≤ root := by exact_mod_cast hRoot
    have hBelow := hx.low
    rw [mantissa_ofMantissaAndAccuracy] at hBelow
    exact hDigits.trans hBelow
  have hPlace : last ≤ place Format.binary64.mantissaBits Format.binary64.minExponent (x * 2 ^ last) := by
    change last ≤ place 53 (-1074) (x * 2 ^ last)
    rw [place, int_log_of_approximates hx hRoot]
    omega
  obtain ⟨hCanonical, hValue⟩ := roundWithAccuracy_spec .positive hx (one_pos.trans_le hLow) (.inl hRoot) hPlace
  refine ⟨hCanonical, ?_⟩
  have hNumber : 2 ^ (-1074 : ℤ) ≤ x * 2 ^ last :=
    (zpow_le_zpow_right₀ (by norm_num) hLeast).trans (le_mul_of_one_le_left (by positivity) hLow)
  rw [← rounded_apply .positive (by positivity)] at hValue
  rw [isZero_iff_value (isFinite_roundWithAccuracy ..), hValue]
  change rounded 53 (-1074) (((1 : ℤ) : ℚ) * (x * 2 ^ last)) ≠ 0
  rw [Int.cast_one, one_mul]
  exact (rounded_pos hNumber).ne'

theorem isZero_sqrt_iff (h : Canonical .binary64 u) (hSign : NotNegative u) :
    Canonical .binary64 (.sqrt .binary64 u) ∧ (IsZero (.sqrt .binary64 u) ↔ IsZero u) := by
  cases u with
  | notANumber | zero => exact ⟨trivial, Iff.rfl⟩
  | infinity sign =>
    cases sign with
    | negative => exact hSign.elim
    | positive => exact ⟨trivial, Iff.rfl⟩
  | finite sign mantissa exponent hPos =>
    cases sign with
    | negative => exact hSign.elim
    | positive =>
      obtain ⟨hCanonical, hRoot⟩ := sqrt_spec_unpacked h
      exact ⟨hCanonical, iff_of_false hRoot id⟩

end Unpacked

/-! ## `Float` -/

section Float
variable {x y : Float}

def Zero (x : Float) : Prop := IsZero x.toModel.unpack

theorem Zero.isFinite (h : Zero x) : x.isFinite = true := by
  change x.toModel.unpack.isFinite = true
  unfold Zero at h
  cases hUnpack : x.toModel.unpack with
  | zero => rfl
  | notANumber | infinity | finite =>
    rw [hUnpack] at h
    exact h.elim

theorem isFinite_of_toRat (h : toRat x ≠ 0) : x.isFinite = true := by
  change x.toModel.unpack.isFinite = true
  rw [toRat_eq] at h
  cases hUnpack : x.toModel.unpack with
  | zero | finite => rfl
  | notANumber | infinity =>
    rw [hUnpack] at h
    exact absurd rfl h

theorem isNaN_or_isInf_or_isFinite (x : Float) : x.isNaN = true ∨ x.isInf = true ∨ x.isFinite = true := by
  change x.toModel.unpack.isNaN = true ∨ x.toModel.unpack.isInf = true ∨ x.toModel.unpack.isFinite = true
  cases x.toModel.unpack with
  | notANumber => exact .inl rfl
  | infinity => exact .inr (.inl rfl)
  | zero | finite => exact .inr (.inr rfl)

theorem zero_iff_toRat (h : x.isFinite = true) : Zero x ↔ toRat x = 0 := by
  rw [toRat_eq]
  exact isZero_iff_value h

theorem beq_zero_iff : (x == 0) = true ↔ Zero x := by
  have hZero : (0 : Float).toModel.unpack = .zero .positive := rfl
  have hCompare : (x == 0) = (x.toModel.unpack.compare (0 : Float).toModel.unpack == some .eq) := rfl
  rw [hCompare, hZero, Zero]
  cases x.toModel.unpack with
  | notANumber => exact iff_of_false nofun id
  | zero sign => exact iff_of_true rfl trivial
  | infinity sign => cases sign <;> exact iff_of_false nofun id
  | finite sign => cases sign <;> exact iff_of_false nofun id

/-- The square of a number that is not too near to zero. -/
theorem zero_square_iff (h : toRat x ≠ 0 → 2 ^ (-537 : ℤ) ≤ |toRat x|) : Zero (x * x) ↔ Zero x := by
  rw [toRat_eq] at h
  have hCanonical := canonical_unpack x.toModel.toBits.toBitVec
  exact (isZero_pack_iff (canonical_mul hCanonical hCanonical)).trans (isZero_mul_self_iff hCanonical h)

theorem zero_add_iff (hx : Unsigned x) (hy : Unsigned y) : Zero (x + y) ↔ Zero x ∧ Zero y := by
  have hLeft := canonical_unpack x.toModel.toBits.toBitVec
  have hRight := canonical_unpack y.toModel.toBits.toBitVec
  exact (isZero_pack_iff (canonical_add hLeft hRight)).trans (isZero_add_iff hLeft hRight hx hy)

theorem zero_sqrt_iff (hx : Unsigned x) : Zero x.sqrt ↔ Zero x := by
  obtain ⟨hCanonical, hRoot⟩ := isZero_sqrt_iff (canonical_unpack x.toModel.toBits.toBitVec) hx
  exact (isZero_pack_iff hCanonical).trans hRoot

end Float

end Binary64
