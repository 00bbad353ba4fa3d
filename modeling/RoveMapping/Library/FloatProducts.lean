import RoveMapping.Library.Binary64Values

/-! # Products, quotients and decimal numbers

A product, a quotient and the float nearest to a decimal number are the exact numbers, rounded once.
-/
namespace RoundedFloat
open Float.Model
open Float.Model.UnpackedFloat (Sign Accuracy ExtendedMantissa)
open NearestEven
set_option autoImplicit false

section Product
variable {spec : Format} {u v : UnpackedFloat} {sign sign' : Sign} {mantissa mantissa' : ℕ} {exponent exponent' : ℤ}

theorem minExponent_nonpos (spec : Format) : spec.minExponent ≤ 0 := by
  have hPower : (0 : ℤ) < 2 ^ (spec.exponentBits - 1) := by positivity
  have hDigits := spec.hm
  unfold Format.minExponent Format.mantissaBits
  push_cast
  omega

theorem isFinite_roundWithAccuracy (sign : Sign) (mantissa : ℕ) (exponent : ℤ) (accuracy : Accuracy) :
    (UnpackedFloat.roundWithAccuracy spec sign mantissa exponent accuracy).isFinite = true := by
  unfold UnpackedFloat.roundWithAccuracy
  dsimp only
  split <;> rfl

theorem apply_mul (sign sign' : Sign) : (sign * sign').apply 1 = sign.apply 1 * sign'.apply 1 := by
  cases sign <;> cases sign' <;> rfl

theorem rounded_apply {precision : ℕ} {least : ℤ} (sign : Sign) {x : ℚ} (h : 0 < x) :
    rounded precision least (sign.apply 1 * x) = sign.apply 1 * magnitude precision least x := by
  cases sign with
  | positive =>
    change rounded precision least ((1 : ℤ) * x) = (1 : ℤ) * _
    rw [Int.cast_one, one_mul, one_mul, rounded, if_neg (not_lt.mpr h.le)]
  | negative =>
    change rounded precision least ((-1 : ℤ) * x) = (-1 : ℤ) * _
    rw [Int.cast_neg, Int.cast_one, neg_one_mul, neg_one_mul, rounded, if_pos (neg_lt_zero.mpr h), neg_neg]

theorem value_finite (sign : Sign) (hPos : 0 < mantissa) :
    value (.finite sign mantissa exponent hPos) = sign.apply 1 * (mantissa * 2 ^ exponent) := by
  rw [value, apply_eq]
  push_cast
  ring

/-- The digits of a product fill the format where those of a factor do. -/
theorem le_place_mul {hPos : 0 < mantissa} {hPos' : 0 < mantissa'} (h : Canonical spec (.finite sign mantissa exponent hPos))
    (h' : Canonical spec (.finite sign' mantissa' exponent' hPos')) :
    exponent + exponent' ≤
      place spec.mantissaBits spec.minExponent ((mantissa * mantissa' : ℕ) * 2 ^ (exponent + exponent')) := by
  obtain ⟨-, hLeast, hFull⟩ := h
  obtain ⟨-, hLeast', hFull'⟩ := h'
  have hProduct : 0 < mantissa * mantissa' := Nat.mul_pos hPos hPos'
  have hLog (hDigits : 2 ^ (spec.mantissaBits - 1) ≤ mantissa * mantissa') :
      spec.mantissaBits - 1 ≤ (mantissa * mantissa').log2 := (Nat.le_log2 hProduct.ne').mpr hDigits
  have hZero := minExponent_nonpos spec
  have hLeft := Nat.le_mul_of_pos_right mantissa hPos'
  have hRight := Nat.le_mul_of_pos_left mantissa' hPos
  rw [place, int_log_eq hProduct]
  rcases hLeast.eq_or_lt with hMin | hMore
  · rcases hLeast'.eq_or_lt with hMin' | hMore'
    · omega
    · have hBits := hLog ((hFull' hMore').trans hRight)
      omega
  · have hBits := hLog ((hFull hMore).trans hLeft)
    omega

/-- The product is the exact one, rounded once. -/
theorem mul_spec (hu : u.isFinite = true) (hv : v.isFinite = true) (hCanonicalU : Canonical spec u)
    (hCanonicalV : Canonical spec v) :
    (UnpackedFloat.mul spec u v).isFinite = true ∧ Canonical spec (UnpackedFloat.mul spec u v) ∧
      value (UnpackedFloat.mul spec u v) = rounded spec.mantissaBits spec.minExponent (value u * value v) := by
  have hZero : rounded spec.mantissaBits spec.minExponent 0 = 0 := by rw [rounded, if_neg (lt_irrefl 0), magnitude_zero]
  cases u with
  | notANumber | infinity => cases hu
  | zero sign =>
    cases v with
    | notANumber | infinity => cases hv
    | zero | finite => exact ⟨rfl, trivial, by simp [value, hZero, UnpackedFloat.mul]⟩
  | finite sign mantissa exponent hPos =>
    cases v with
    | notANumber | infinity => cases hv
    | zero => exact ⟨rfl, trivial, by simp [value, hZero, UnpackedFloat.mul]⟩
    | finite sign' mantissa' exponent' hPos' =>
      have hProduct : 0 < mantissa * mantissa' := Nat.mul_pos hPos hPos'
      have hNumber : (0 : ℚ) < (mantissa * mantissa' : ℕ) := by exact_mod_cast hProduct
      obtain ⟨hCanonical, hValue⟩ := roundWithAccuracy_spec (sign * sign')
        (show Approximates (mantissa * mantissa') .exact _ from .exact _) hNumber (.inl hProduct) (le_place_mul hCanonicalU hCanonicalV)
      refine ⟨isFinite_roundWithAccuracy .., hCanonical, hValue.trans ?_⟩
      rw [← rounded_apply _ (by positivity), value_finite, value_finite, apply_mul, zpow_add₀ two_ne_zero]
      congr 1
      push_cast
      ring

/-- The digits of a quotient before the point, and what is left of the division. -/
theorem approximates_div (numerator : ℕ) {denominator : ℕ} (hPos : 0 < denominator) :
    Approximates (numerator / denominator) (UnpackedFloat.accuracyOfFraction (numerator % denominator) denominator)
      (numerator / denominator : ℚ) := by
  have hDenominator : (0 : ℚ) < denominator := by exact_mod_cast hPos
  obtain ⟨x, hx⟩ : ∃ x : ℚ, x = numerator / denominator := ⟨_, rfl⟩
  have hRest : x - (numerator / denominator : ℕ) = (numerator % denominator : ℕ) / denominator := by
    have hSplit : ((denominator * (numerator / denominator) + numerator % denominator : ℕ) : ℚ) = numerator := by
      rw [Nat.div_add_mod]
    push_cast at hSplit
    rw [hx, ← hSplit]
    field_simp
    ring
  have hLess := Nat.mod_lt numerator hPos
  rw [← hx]
  generalize numerator / denominator = q at hRest ⊢
  generalize numerator % denominator = rest at hRest hLess ⊢
  have hNonneg : (0 : ℚ) ≤ (rest : ℚ) / denominator := by positivity
  have hBelow : (rest : ℚ) / denominator < 1 := by
    rw [div_lt_one hDenominator]
    exact_mod_cast hLess
  have hHalf : 1 / 2 ≤ (rest : ℚ) / denominator ↔ denominator ≤ 2 * rest := by
    rw [div_le_div_iff₀ two_pos hDenominator, one_mul, mul_comm (rest : ℚ)]
    exact_mod_cast Iff.rfl
  have hTie : (rest : ℚ) / denominator = 1 / 2 ↔ 2 * rest = denominator := by
    rw [div_eq_div_iff hDenominator.ne' two_ne_zero, one_mul, mul_comm (rest : ℚ)]
    exact_mod_cast Iff.rfl
  have hExact : (rest : ℚ) / denominator = 0 ↔ rest = 0 := by
    rw [div_eq_zero_iff, or_iff_left hDenominator.ne', Nat.cast_eq_zero]
  have hBits (roundBit stickyBit : Bool) (hRound : roundBit = true ↔ denominator ≤ 2 * rest)
      (hSticky : stickyBit = true ↔ rest ≠ 0 ∧ 2 * rest ≠ denominator) : Represents ⟨q, roundBit, stickyBit⟩ x := by
    constructor
    · dsimp only
      linarith
    · dsimp only
      linarith
    · rw [hRound, hRest, hHalf]
    · rw [hSticky, hRest]
      simp only [ne_eq, hExact, hTie]
  unfold UnpackedFloat.accuracyOfFraction
  split
  · exact hBits false false (by simp; omega) (by simp; omega)
  · cases hOrder : compare (2 * rest) denominator with
    | lt =>
      have hLt := Nat.compare_eq_lt.mp hOrder
      exact hBits false true (by simp; omega) (by simp; omega)
    | eq =>
      have hEq := Nat.compare_eq_eq.mp hOrder
      exact hBits true false (by simp; omega) (by simp; omega)
    | gt =>
      have hGt := Nat.compare_eq_gt.mp hOrder
      exact hBits true true (by simp; omega) (by simp; omega)

/-- The quotient is the exact one, rounded once. -/
theorem div_spec (hPos : 0 < mantissa) (hPos' : 0 < mantissa') :
    let x : ℚ := mantissa * 2 ^ exponent / (mantissa' * 2 ^ exponent')
    let quotient := UnpackedFloat.div spec (.finite sign mantissa exponent hPos) (.finite sign' mantissa' exponent' hPos')
    quotient.isFinite = true ∧ Canonical spec quotient ∧
      value quotient = (sign / sign').apply 1 * magnitude spec.mantissaBits spec.minExponent x := by
  intro x quotient
  have hMantissa : (0 : ℚ) < mantissa := by exact_mod_cast hPos
  have hMantissa' : (0 : ℚ) < mantissa' := by exact_mod_cast hPos'
  obtain ⟨target, hTarget⟩ : ∃ target, target = min (exponent - exponent')
    (spec.targetExponent (totalExponent mantissa exponent - totalExponent mantissa' exponent')) := ⟨_, rfl⟩
  obtain ⟨n, hn⟩ := Int.le.dest (show target ≤ exponent - exponent' by omega)
  have hShift : (exponent - exponent' - target).toNat = n := by omega
  have hQuotient : quotient = UnpackedFloat.roundWithAccuracy spec (sign / sign') (mantissa <<< n / mantissa') target
      (UnpackedFloat.accuracyOfFraction (mantissa <<< n % mantissa') mantissa') := by
    rw [← hShift, hTarget]
    rfl
  have hValue : ((mantissa <<< n : ℕ) / mantissa' : ℚ) * 2 ^ target = x := by
    have hPower : (2 : ℚ) ^ exponent = 2 ^ exponent' * (2 ^ target * 2 ^ n) := by
      rw [← zpow_natCast, ← zpow_add₀ two_ne_zero, ← zpow_add₀ two_ne_zero]
      congr 1
      omega
    rw [Nat.shiftLeft_eq, show x = mantissa * 2 ^ exponent / (mantissa' * 2 ^ exponent') from rfl, hPower]
    push_cast
    field_simp
  have hLow : (totalExponent mantissa exponent - totalExponent mantissa' exponent') - 1 ≤ Int.log 2 x := by
    have hBottom : ((2 : ℚ) ^ mantissa.log2) ≤ mantissa := by exact_mod_cast Nat.log2_self_le hPos.ne'
    have hTop : (mantissa' : ℚ) ≤ 2 ^ (mantissa'.log2 + 1) := by exact_mod_cast Nat.lt_log2_self.le
    rw [← Int.zpow_le_iff_le_log (by norm_num) (by positivity), le_div_iff₀ (by positivity), totalExponent, totalExponent]
    push_cast
    calc (2 : ℚ) ^ ((mantissa.log2 : ℤ) + 1 + exponent - (mantissa'.log2 + 1 + exponent') - 1) * (mantissa' * 2 ^ exponent')
      _ ≤ 2 ^ ((mantissa.log2 : ℤ) + 1 + exponent - (mantissa'.log2 + 1 + exponent') - 1) *
          (2 ^ (mantissa'.log2 + 1) * 2 ^ exponent') := by gcongr
      _ = 2 ^ mantissa.log2 * 2 ^ exponent := by
        rw [← zpow_natCast, ← zpow_natCast, ← zpow_add₀ two_ne_zero, ← zpow_add₀ two_ne_zero, ← zpow_add₀ two_ne_zero]
        congr 1
        push_cast
        ring
      _ ≤ mantissa * 2 ^ exponent := by gcongr
  have hBits := mantissaBits_pos spec
  have hPlace : target ≤ place spec.mantissaBits spec.minExponent x := by
    rw [Format.targetExponent] at hTarget
    unfold place
    omega
  have hApproximates := approximates_div (mantissa <<< n) hPos'
  have hNumber : (0 : ℚ) < (mantissa <<< n : ℕ) / mantissa' := by
    rw [Nat.shiftLeft_eq]
    push_cast
    positivity
  have hReady : Ready spec (mantissa <<< n / mantissa') target := by
    by_contra hNone
    rw [Ready, not_or] at hNone
    rw [Format.targetExponent] at hTarget
    have hLarge : (2 : ℚ) ^ target ≤ x := by
      have hPower := (Int.zpow_le_iff_le_log (b := 2) (by norm_num) (show 0 < x by positivity)).mpr
        (show target ≤ Int.log 2 x by omega)
      exact_mod_cast hPower
    have hOne : (1 : ℚ) ≤ (mantissa <<< n : ℕ) / mantissa' := by
      rw [← hValue] at hLarge
      exact le_of_mul_le_mul_right (by rwa [one_mul]) (show (0 : ℚ) < 2 ^ target by positivity)
    have hHigh := hApproximates.high
    rw [mantissa_ofMantissaAndAccuracy, Nat.eq_zero_of_not_pos hNone.1, Nat.cast_zero, zero_add] at hHigh
    exact absurd hHigh (not_lt.mpr hOne)
  obtain ⟨hCanonical, hRounded⟩ := roundWithAccuracy_spec (sign / sign') hApproximates hNumber hReady (by rwa [hValue])
  rw [hQuotient, ← hValue]
  exact ⟨isFinite_roundWithAccuracy .., hCanonical, hRounded⟩

end Product
end RoundedFloat

namespace Binary64
open Float.Model
open Float.Model.UnpackedFloat (Sign)
open RoundedFloat NearestEven

section Operations
variable {x y : Float}

theorem ofModel_pack_spec {u : UnpackedFloat} (hFinite : u.isFinite = true) (hCanonical : Canonical .binary64 u)
    (hSmall : |value u| < 2 ^ (1024 : ℤ)) :
    (Float.ofModel (.pack u)).isFinite = true ∧ toRat (.ofModel (.pack u)) = value u := by
  have hUnpack : (Float.ofModel (.pack u)).toModel.unpack = u := unpack_pack_of_small hFinite hCanonical hSmall
  constructor
  · change (Float.ofModel (.pack u)).toModel.unpack.isFinite = true
    rw [hUnpack]
    exact hFinite
  · rw [toRat_eq, hUnpack]

theorem mul_spec (hx : x.isFinite = true) (hy : y.isFinite = true)
    (hSmall : |rounded 53 (-1074) (toRat x * toRat y)| < 2 ^ (1024 : ℤ)) :
    (x * y).isFinite = true ∧ toRat (x * y) = rounded 53 (-1074) (toRat x * toRat y) := by
  obtain ⟨hFinite, hCanonical, hValue⟩ := RoundedFloat.mul_spec hx hy (canonical_unpack _) (canonical_unpack _)
  have hProduct : value (UnpackedFloat.mul .binary64 x.toModel.unpack y.toModel.unpack) =
      rounded 53 (-1074) (toRat x * toRat y) := by
    rw [toRat_eq, toRat_eq]
    exact hValue
  rw [← hProduct] at hSmall ⊢
  exact ofModel_pack_spec hFinite hCanonical hSmall

theorem value_neg_unpacked (u : UnpackedFloat) : value u.neg = -value u := by
  cases u with
  | finite sign mantissa exponent hPos =>
    rw [UnpackedFloat.neg, value_finite, value_finite, neg_apply]
    push_cast
    ring
  | notANumber | infinity | zero => exact neg_zero.symm

theorem neg_spec (hx : x.isFinite = true) : (-x).isFinite = true ∧ toRat (-x) = -toRat x := by
  have hUnpack : (-x).toModel.unpack = x.toModel.unpack.neg := by
    change (Float.Model.pack x.toModel.unpack.neg).unpack = x.toModel.unpack.neg
    have hFinite : x.toModel.unpack.isFinite = true := hx
    cases hBits : x.toModel.unpack with
    | notANumber | infinity =>
      rw [hBits] at hFinite
      cases hFinite
    | zero sign => exact unpack_zero (-sign)
    | finite sign mantissa exponent hPos => exact unpack_pack hPos (fits_unpack _ hBits)
  constructor
  · change (-x).toModel.unpack.isFinite = true
    have hFinite : x.toModel.unpack.isFinite = true := hx
    rw [hUnpack]
    cases hBits : x.toModel.unpack with
    | notANumber | infinity =>
      rw [hBits] at hFinite
      cases hFinite
    | zero | finite => rfl
  · rw [toRat_eq, toRat_eq, hUnpack, value_neg_unpacked]

theorem rounded_toRat (x : Float) : rounded 53 (-1074) (toRat x) = toRat x := by
  rw [toRat_eq]
  exact (canonical_unpack _).rounded_eq.1

theorem abs_rounded_lt {q : ℚ} {k : ℤ} (hPlace : -1074 ≤ k) (hMost : k < 1024) (h : |q| ≤ 2 ^ k) :
    |rounded 53 (-1074) q| < 2 ^ (1024 : ℤ) :=
  (abs_rounded_le hPlace h).trans_lt (zpow_lt_zpow_right₀ (by norm_num) hMost)

theorem abs_rounded_sub_le {q : ℚ} {k : ℤ} (hPlace : -1074 ≤ k - 53) (h : |q| < 2 ^ k) :
    |rounded 53 (-1074) q - q| ≤ 2 ^ (k - 54) := by
  have hStep (r : ℚ) (hPos : 0 < r) (hBelow : r < 2 ^ k) : |magnitude 53 (-1074) r - r| ≤ 2 ^ (k - 54) := by
    have hHalf : |magnitude 53 (-1074) r - r| ≤ 2 ^ (k - (53 : ℕ) - 1) := abs_magnitude_sub_le hPlace hPos hBelow
    rwa [show k - (53 : ℕ) - 1 = k - 54 by omega] at hHalf
  rcases lt_trichotomy q 0 with hNegative | rfl | hPositive
  · have hMinus := hStep (-q) (neg_pos.mpr hNegative) (by rwa [abs_of_neg hNegative] at h)
    rw [rounded, if_pos hNegative, ← abs_neg]
    convert hMinus using 2
    ring
  · rw [rounded, if_neg (lt_irrefl 0), magnitude_zero, sub_zero, abs_zero]
    positivity
  · rw [rounded, if_neg (not_lt.mpr hPositive.le)]
    exact hStep q hPositive (by rwa [abs_of_pos hPositive] at h)

theorem abs_rounded_sub_le_abs_of_pos {q : ℚ} (hPos : 0 < q) (x : Float) : |rounded 53 (-1074) q - q| ≤ |toRat x - q| := by
  have hPrecision : 0 < 53 := by norm_num
  rw [rounded, if_neg (not_lt.mpr hPos.le)]
  rcases lt_or_ge (toRat x) 0 with hNegative | hNonneg
  · have hZero : |magnitude 53 (-1074) q - q| ≤ |0 - q| := abs_magnitude_sub_le_abs hPrecision hPos magnitude_zero
    refine hZero.trans ?_
    rw [zero_sub, abs_neg, abs_of_pos hPos, abs_of_neg (by linarith)]
    linarith
  · have hFormat := rounded_toRat x
    rw [rounded, if_neg (not_lt.mpr hNonneg)] at hFormat
    exact abs_magnitude_sub_le_abs hPrecision hPos hFormat

/-- No other float is nearer to a number than the one that it is rounded to. -/
theorem abs_rounded_sub_le_abs (q : ℚ) (x : Float) (hx : x.isFinite = true) :
    |rounded 53 (-1074) q - q| ≤ |toRat x - q| := by
  rcases lt_trichotomy q 0 with hNegative | rfl | hPositive
  · have hMinus := abs_rounded_sub_le_abs_of_pos (neg_pos.mpr hNegative) (-x)
    rwa [rounded_neg, (neg_spec hx).2, neg_sub_neg, neg_sub_neg, abs_sub_comm, abs_sub_comm q] at hMinus
  · rw [rounded, if_neg (lt_irrefl 0), magnitude_zero, sub_zero, abs_zero]
    exact abs_nonneg _
  · exact abs_rounded_sub_le_abs_of_pos hPositive x

end Operations

section Numbers

/-- The float nearest to an integer. -/
theorem ofInt_spec {n : ℤ} (hSmall : |rounded 53 (-1074) n| < 2 ^ (1024 : ℤ)) :
    (Float.ofModel (.ofInt n)).isFinite = true ∧ toRat (.ofModel (.ofInt n)) = rounded 53 (-1074) n := by
  obtain ⟨hFinite, hCanonical, hValue⟩ := normalize_spec .binary64 n 0 .positive
  have hRounded : value (UnpackedFloat.ofInt .binary64 n) = rounded 53 (-1074) n := by
    rw [UnpackedFloat.ofInt, hValue, zpow_zero, mul_one]
    rfl
  rw [← hRounded] at hSmall ⊢
  exact ofModel_pack_spec hFinite hCanonical hSmall

/-- The float nearest to a decimal number with digits behind the point. -/
theorem ofScientific_spec {n digits : ℕ} (hPos : 0 < n) (hDigits : 0 < digits) (hFew : digits ≤ 2048)
    (hSmall : magnitude 53 (-1074) (n / 10 ^ digits) < 2 ^ (1024 : ℤ)) :
    (Float.ofModel (.ofScientific n (-digits))).isFinite = true ∧
      toRat (.ofModel (.ofScientific n (-digits))) = magnitude 53 (-1074) (n / 10 ^ digits) := by
  have hPower : 0 < 10 ^ (- -(digits : ℤ)).toNat := Nat.pow_pos (by norm_num)
  have hQuotient : UnpackedFloat.ofScientific .binary64 n (-digits) =
      UnpackedFloat.div .binary64 (.finite .positive n 0 hPos) (.finite .positive (10 ^ (- -(digits : ℤ)).toNat) 0 hPower) := by
    have hLarge : ¬-(digits : ℤ) > 2 ^ Format.binary64.exponentBits := by
      have hBits : (0 : ℤ) < 2 ^ Format.binary64.exponentBits := by positivity
      omega
    have hLow : ¬-(digits : ℤ) < -((2 ^ Format.binary64.exponentBits : ℤ) + n.log2) := by
      have hBits : (2 ^ Format.binary64.exponentBits : ℤ) = 2048 := rfl
      rw [hBits]
      omega
    rw [UnpackedFloat.ofScientific, dif_neg hPos.ne', if_neg hLarge, if_neg hLow, if_neg (by omega)]
  obtain ⟨hFinite, hCanonical, hValue⟩ := div_spec hPos hPower
  rw [← hQuotient] at hFinite hCanonical hValue
  have hMagnitude : value (UnpackedFloat.ofScientific .binary64 n (-digits)) = magnitude 53 (-1074) (n / 10 ^ digits) := by
    have hSign : ((Sign.positive / Sign.positive).apply 1 : ℚ) = 1 := by
      change ((1 : ℤ) : ℚ) = 1
      norm_num
    rw [hValue, hSign, one_mul, zpow_zero, mul_one, mul_one, neg_neg, Int.toNat_natCast, Nat.cast_pow, Nat.cast_ofNat]
    rfl
  have hNonneg : 0 ≤ magnitude 53 (-1074) (n / 10 ^ digits : ℚ) := magnitude_nonneg 53 (-1074) (by positivity)
  rw [← abs_of_nonneg hNonneg, ← hMagnitude] at hSmall
  rw [← hMagnitude]
  exact ofModel_pack_spec hFinite hCanonical hSmall

end Numbers

end Binary64
