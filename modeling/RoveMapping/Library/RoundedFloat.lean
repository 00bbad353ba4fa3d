import RoveMapping.Library.NearestEven
import Mathlib

/-! # What the rounding of an unpacked float stands for

The shifts with a round bit and a sticky bit, by which an unpacked float is brought into a format, round its
value to nearest, ties to even.
-/
namespace RoundedFloat
open Float.Model
open Float.Model.UnpackedFloat (Sign Accuracy ExtendedMantissa)
open NearestEven
set_option autoImplicit false

/-- The number that a finite value stands for. -/
def value : UnpackedFloat → ℚ
  | .finite sign mantissa exponent _ => sign.apply mantissa * 2 ^ exponent
  | _ => 0

/-- The bits that a format has of a number, which no two unpacked floats of one value then differ in. -/
def Canonical (spec : Format) : UnpackedFloat → Prop
  | .finite _ mantissa exponent _ => mantissa < 2 ^ spec.mantissaBits ∧ spec.minExponent ≤ exponent ∧
      (spec.minExponent < exponent → 2 ^ (spec.mantissaBits - 1) ≤ mantissa)
  | _ => True

/-! ## Shifts -/

/-- The mantissa with its two bits tells `x` apart as far as the rounding needs it. -/
structure Represents (em : ExtendedMantissa) (x : ℚ) : Prop where
  low : em.mantissa ≤ x
  high : x < em.mantissa + 1
  round : em.roundBit = true ↔ 1 / 2 ≤ x - em.mantissa
  sticky : em.stickyBit = true ↔ x - em.mantissa ≠ 0 ∧ x - em.mantissa ≠ 1 / 2

theorem Represents.exact (mantissa : ℕ) : Represents ⟨mantissa, false, false⟩ mantissa where
  low := le_rfl
  high := by linarith
  round := by norm_num
  sticky := by simp

theorem Represents.bits {em : ExtendedMantissa} {x : ℚ} (h : Represents em x) :
    (em.roundBit || em.stickyBit) = true ↔ x - em.mantissa ≠ 0 := by
  rw [Bool.or_eq_true, h.round, h.sticky]
  constructor
  · rintro (hRound | hSticky)
    · linarith
    · exact hSticky.1
  · intro hFraction
    by_cases hHalf : x - em.mantissa = 1 / 2
    · exact .inl hHalf.ge
    · exact .inr ⟨hFraction, hHalf⟩

theorem Represents.shift {em : ExtendedMantissa} {x : ℚ} (h : Represents em x) : Represents em.shiftRightOne (x / 2) := by
  have hLow := h.low
  have hHigh := h.high
  have hBits := h.bits
  -- The bit that goes to the round bit is worth one half.
  have hFraction : x / 2 - (em.mantissa / 2 : ℕ) = ((em.mantissa % 2 : ℕ) + (x - em.mantissa)) / 2 := by
    have hNat := Nat.div_add_mod em.mantissa 2
    have hSplit : (2 : ℚ) * (em.mantissa / 2 : ℕ) + (em.mantissa % 2 : ℕ) = em.mantissa := by exact_mod_cast hNat
    linarith
  have hRoundBit : em.shiftRightOne.roundBit = (em.mantissa % 2 != 0) := rfl
  have hStickyBit : em.shiftRightOne.stickyBit = (em.roundBit || em.stickyBit) := rfl
  have hMantissa : em.shiftRightOne.mantissa = em.mantissa / 2 := rfl
  have hLast : em.mantissa % 2 = 0 ∨ em.mantissa % 2 = 1 := Nat.mod_two_eq_zero_or_one _
  constructor
  · rw [hMantissa, ← sub_nonneg, hFraction]
    have hNonneg : (0 : ℚ) ≤ (em.mantissa % 2 : ℕ) := Nat.cast_nonneg _
    linarith
  · have hOne : ((em.mantissa % 2 : ℕ) : ℚ) ≤ 1 := by exact_mod_cast (show em.mantissa % 2 ≤ 1 by omega)
    rw [hMantissa, ← sub_lt_iff_lt_add', hFraction]
    linarith
  · rw [hMantissa, hRoundBit, hFraction]
    rcases hLast with hEven | hOdd
    · rw [hEven]
      constructor
      · exact nofun
      · intro hHalf
        push_cast at hHalf
        linarith
    · rw [hOdd]
      refine ⟨fun _ => ?_, fun _ => rfl⟩
      push_cast
      linarith
  · rw [hMantissa, hStickyBit, hFraction, hBits]
    constructor
    · intro hRest
      rcases hLast with hEven | hOdd
      · rw [hEven]
        push_cast
        exact ⟨fun hZero => hRest (by linarith), fun hHalf => by linarith⟩
      · rw [hOdd]
        push_cast
        exact ⟨fun hZero => by linarith, fun hHalf => hRest (by linarith)⟩
    · rintro ⟨hZero, hHalf⟩ hRest
      rcases hLast with hEven | hOdd
      · rw [hEven, hRest] at hZero
        exact hZero (by norm_num)
      · rw [hOdd, hRest] at hHalf
        exact hHalf (by norm_num)

theorem Represents.shifts {em : ExtendedMantissa} {x : ℚ} (h : Represents em x) (n : ℕ) : Represents (em >>> n) (x / 2 ^ n) := by
  change Represents (n.repeat ExtendedMantissa.shiftRightOne em) (x / 2 ^ n)
  induction n with
  | zero => simpa [Nat.repeat] using h
  | succ n ih =>
    have hShift := ih.shift
    rwa [div_div, ← pow_succ] at hShift

theorem Represents.floor {em : ExtendedMantissa} {x : ℚ} (h : Represents em x) : ⌊x⌋ = em.mantissa := by
  rw [Int.floor_eq_iff]
  exact ⟨by exact_mod_cast h.low, by exact_mod_cast h.high⟩

theorem Represents.roundedMantissa {em : ExtendedMantissa} {x : ℚ} (h : Represents em x) :
    (em.roundedMantissa : ℤ) = nearest x := by
  obtain ⟨mantissa, roundBit, stickyBit⟩ := em
  have hFloor : ⌊x⌋ = mantissa := h.floor
  have hLow : (mantissa : ℚ) ≤ x := h.low
  have hHigh : x < mantissa + 1 := h.high
  have hRound : roundBit = true ↔ 1 / 2 ≤ x - mantissa := h.round
  have hSticky : stickyBit = true ↔ x - mantissa ≠ 0 ∧ x - mantissa ≠ 1 / 2 := h.sticky
  unfold nearest
  rw [hFloor, Int.cast_natCast]
  cases roundBit with
  | false =>
    have hBelow : ¬1 / 2 ≤ x - mantissa := fun hHalf => absurd (hRound.mpr hHalf) nofun
    rw [if_pos (.inl (by linarith))]
    cases stickyBit <;> rfl
  | true =>
    have hAbove := hRound.mp rfl
    cases stickyBit with
    | true =>
      have hTie := (hSticky.mp rfl).2
      rw [if_neg]
      · rfl
      · rintro (hBelow | ⟨hHalf, -⟩)
        · linarith
        · exact hTie (by linarith)
    | false =>
      have hTie : x - mantissa = 1 / 2 := by
        by_contra hHalf
        exact absurd (hSticky.mpr ⟨by linarith, hHalf⟩) nofun
      rw [hTie]
      change ((mantissa + mantissa % 2 : ℕ) : ℤ) = _
      split
      · rename_i hDown
        rcases hDown with hBelow | ⟨-, hEven⟩
        · norm_num at hBelow
        · omega
      · rename_i hOdd
        have hOdd : ¬(mantissa : ℤ) % 2 = 0 := fun hEven => hOdd (.inr ⟨by norm_num, hEven⟩)
        omega

/-! ## The place of the last digit -/

section Round
variable {spec : Format} {mantissa : ℕ} {exponent : ℤ} {accuracy : Accuracy} {x : ℚ}

@[simp] theorem mantissa_ofMantissaAndAccuracy (mantissa : ℕ) (accuracy : Accuracy) :
    (ExtendedMantissa.ofMantissaAndAccuracy mantissa accuracy).mantissa = mantissa := by
  unfold ExtendedMantissa.ofMantissaAndAccuracy
  split <;> rfl

/-- A number with the digits of a mantissa before the point, and what the accuracy tells behind it. -/
abbrev Approximates (mantissa : ℕ) (accuracy : Accuracy) (x : ℚ) : Prop :=
  Represents (.ofMantissaAndAccuracy mantissa accuracy) x

theorem int_log_of_approximates (h : Approximates mantissa accuracy x) (hPos : 0 < mantissa) :
    Int.log 2 (x * 2 ^ exponent) = mantissa.log2 + exponent := by
  have hLow := h.low
  have hHigh := h.high
  rw [mantissa_ofMantissaAndAccuracy] at hLow hHigh
  have hMantissa : (0 : ℚ) < mantissa := by exact_mod_cast hPos
  have hNumber : 0 < x := hMantissa.trans_le hLow
  have hValue : (0 : ℚ) < x * 2 ^ exponent := by positivity
  have hBottom : ((2 : ℚ) ^ mantissa.log2) ≤ mantissa := by exact_mod_cast Nat.log2_self_le hPos.ne'
  have hTop : (mantissa : ℚ) + 1 ≤ 2 ^ (mantissa.log2 + 1) := by exact_mod_cast Nat.lt_log2_self
  apply le_antisymm
  · rw [← Int.lt_add_one_iff, ← Int.lt_zpow_iff_log_lt (by norm_num) hValue]
    push_cast
    calc x * 2 ^ exponent
      _ < 2 ^ (mantissa.log2 + 1) * 2 ^ exponent := by
        gcongr
        exact hHigh.trans_le hTop
      _ = 2 ^ ((mantissa.log2 : ℤ) + exponent + 1) := by
        rw [← zpow_natCast, ← zpow_add₀ two_ne_zero]
        congr 1
        push_cast
        ring
  · rw [← Int.zpow_le_iff_le_log (by norm_num) hValue]
    push_cast
    calc (2 : ℚ) ^ ((mantissa.log2 : ℤ) + exponent)
      _ = 2 ^ mantissa.log2 * 2 ^ exponent := by rw [zpow_add₀ two_ne_zero, zpow_natCast]
      _ ≤ x * 2 ^ exponent := by
        gcongr
        exact hBottom.trans hLow

theorem int_log_eq (hPos : 0 < mantissa) : Int.log 2 ((mantissa : ℚ) * 2 ^ exponent) = mantissa.log2 + exponent :=
  int_log_of_approximates (show Approximates mantissa .exact mantissa from .exact mantissa) hPos

theorem mantissaBits_pos (spec : Format) : 0 < spec.mantissaBits := by
  unfold Format.mantissaBits
  omega

/-- There are digits before the point, or none of them counts. -/
def Ready (spec : Format) (mantissa : ℕ) (exponent : ℤ) : Prop := 0 < mantissa ∨ exponent ≤ spec.minExponent

theorem targetExponent_of_approximates (h : Approximates mantissa accuracy x) (hNumber : 0 < x)
    (hReady : Ready spec mantissa exponent) :
    spec.targetExponent (totalExponent mantissa exponent) = place spec.mantissaBits spec.minExponent (x * 2 ^ exponent) := by
  rcases Nat.eq_zero_or_pos mantissa with rfl | hPos
  · have hLeast : exponent ≤ spec.minExponent := hReady.resolve_left (lt_irrefl 0)
    have hBelow : x < 1 := by simpa using h.high
    have hLog : Int.log 2 (x * 2 ^ exponent) < exponent := by
      have hValue : 0 < x * 2 ^ exponent := by positivity
      rw [← Int.lt_zpow_iff_log_lt (by norm_num) hValue]
      push_cast
      exact mul_lt_of_lt_one_left (by positivity) hBelow
    have hBits := mantissaBits_pos spec
    rw [Format.targetExponent, totalExponent, place, Nat.log2_zero]
    omega
  · rw [Format.targetExponent, totalExponent, place, int_log_of_approximates h hPos]
    congr 1
    ring

theorem targetExponent_eq (hPos : 0 < mantissa) : spec.targetExponent (totalExponent mantissa exponent) =
    place spec.mantissaBits spec.minExponent (mantissa * 2 ^ exponent) :=
  targetExponent_of_approximates (show Approximates mantissa .exact mantissa from .exact mantissa) (by exact_mod_cast hPos)
    (.inl hPos)

/-- The second shift is for a mantissa that was rounded up to a power of two. -/
theorem shiftToTargetExponent_rounded (hMantissa : mantissa ≤ 2 ^ spec.mantissaBits) (hLeast : spec.minExponent ≤ exponent) :
    UnpackedFloat.shiftToTargetExponent spec mantissa exponent .exact =
      if mantissa = 2 ^ spec.mantissaBits then (⟨2 ^ (spec.mantissaBits - 1), false, false⟩, exponent + 1)
      else (⟨mantissa, false, false⟩, exponent) := by
  have hBits := mantissaBits_pos spec
  unfold UnpackedFloat.shiftToTargetExponent UnpackedFloat.shiftToExponent
  dsimp only
  split
  · rename_i hPower
    have hTarget : spec.targetExponent (totalExponent mantissa exponent) = exponent + 1 := by
      rw [Format.targetExponent, totalExponent, hPower, Nat.log2_two_pow]
      omega
    have hShift : (exponent + 1 - exponent).toNat = 1 := by omega
    obtain ⟨d, hDigits⟩ := Nat.exists_eq_succ_of_ne_zero hBits.ne'
    rw [hTarget, hShift, hPower, hDigits, Nat.succ_sub_one, pow_succ]
    change (ExtendedMantissa.shiftRightOne ⟨2 ^ d * 2, false, false⟩, exponent + 1) = _
    simp [ExtendedMantissa.shiftRightOne]
  · rename_i hPower
    have hLog : mantissa.log2 < spec.mantissaBits := by
      rcases Nat.eq_zero_or_pos mantissa with rfl | hPos
      · simpa using hBits
      · exact (Nat.log2_lt hPos.ne').mpr (by omega)
    have hShift : (spec.targetExponent (totalExponent mantissa exponent) - exponent).toNat = 0 := by
      rw [Format.targetExponent, totalExponent]
      omega
    rw [hShift]
    change (ExtendedMantissa.ofMantissaAndAccuracy mantissa .exact, exponent + 0) = _
    rw [add_zero]
    rfl

/-- The first shift leaves the digits from the last place on. -/
theorem shiftToTargetExponent_spec (h : Approximates mantissa accuracy x) (hNumber : 0 < x)
    (hReady : Ready spec mantissa exponent)
    (hPlace : exponent ≤ place spec.mantissaBits spec.minExponent (x * 2 ^ exponent)) :
    let k := place spec.mantissaBits spec.minExponent (x * 2 ^ exponent)
    (UnpackedFloat.shiftToTargetExponent spec mantissa exponent accuracy).2 = k ∧
      ((UnpackedFloat.shiftToTargetExponent spec mantissa exponent accuracy).1.roundedMantissa : ℤ) =
        nearest (x * 2 ^ exponent / 2 ^ k) := by
  intro k
  unfold UnpackedFloat.shiftToTargetExponent UnpackedFloat.shiftToExponent
  dsimp only
  rw [targetExponent_of_approximates h hNumber hReady]
  obtain ⟨n, hn⟩ := Int.le.dest hPlace
  have hShift : (k - exponent).toNat = n := by omega
  have hDigits : x * 2 ^ exponent / 2 ^ k = x / 2 ^ n := by
    change exponent + n = k at hn
    rw [← hn, zpow_add₀ two_ne_zero, zpow_natCast]
    field_simp
  change exponent + ((k - exponent).toNat : ℤ) = k ∧ _
  rw [hDigits, hShift]
  exact ⟨hn, (h.shifts n).roundedMantissa⟩

/-- The digits fill the format, unless the last of them is worth the least that there is. -/
theorem nearest_digits (spec : Format) (hNumber : 0 < x) :
    let k := place spec.mantissaBits spec.minExponent x
    nearest (x / 2 ^ k) ≤ 2 ^ spec.mantissaBits ∧
      (spec.minExponent < k → 2 ^ (spec.mantissaBits - 1) ≤ nearest (x / 2 ^ k)) := by
  intro k
  have hBits := mantissaBits_pos spec
  have hPlace : k = place spec.mantissaBits spec.minExponent x := rfl
  unfold place at hPlace
  constructor
  · rw [← nearest_intCast (2 ^ spec.mantissaBits)]
    apply nearest_mono
    have hBelow : x < 2 ^ (Int.log 2 x + 1) := Int.lt_zpow_succ_log_self (by norm_num) x
    rw [div_le_iff₀ (by positivity)]
    push_cast
    calc x
      _ ≤ 2 ^ (Int.log 2 x + 1) := hBelow.le
      _ ≤ 2 ^ (spec.mantissaBits + k) := zpow_le_zpow_right₀ (by norm_num) (by omega)
      _ = 2 ^ spec.mantissaBits * 2 ^ k := by rw [zpow_add₀ two_ne_zero, zpow_natCast]
  · intro hLeast
    rw [← nearest_intCast (2 ^ (spec.mantissaBits - 1))]
    apply nearest_mono
    have hAbove : (2 : ℚ) ^ Int.log 2 x ≤ x := Int.zpow_log_le_self (by norm_num) hNumber
    rw [le_div_iff₀ (by positivity)]
    push_cast
    calc (2 : ℚ) ^ (spec.mantissaBits - 1) * 2 ^ k
      _ = 2 ^ ((spec.mantissaBits - 1 : ℕ) + k) := by rw [zpow_add₀ two_ne_zero, zpow_natCast]
      _ = 2 ^ Int.log 2 x := by
        congr 1
        omega
      _ ≤ x := hAbove

theorem apply_eq (sign : Sign) (n : ℤ) : sign.apply n = sign.apply 1 * n := by
  cases sign with
  | negative =>
    change -n = -1 * n
    ring
  | positive =>
    change n = 1 * n
    ring

theorem roundWithAccuracy_spec (sign : Sign) (h : Approximates mantissa accuracy x) (hNumber : 0 < x)
    (hReady : Ready spec mantissa exponent)
    (hPlace : exponent ≤ place spec.mantissaBits spec.minExponent (x * 2 ^ exponent)) :
    Canonical spec (UnpackedFloat.roundWithAccuracy spec sign mantissa exponent accuracy) ∧
      value (UnpackedFloat.roundWithAccuracy spec sign mantissa exponent accuracy) =
        sign.apply 1 * magnitude spec.mantissaBits spec.minExponent (x * 2 ^ exponent) := by
  obtain ⟨hExponent, hRounded⟩ := shiftToTargetExponent_spec h hNumber hReady hPlace
  obtain ⟨hHigh, hFull⟩ := nearest_digits spec (show 0 < x * 2 ^ exponent by positivity)
  have hBits := mantissaBits_pos spec
  have hLeast : spec.minExponent ≤ place spec.mantissaBits spec.minExponent (x * 2 ^ exponent) := le_max_right ..
  unfold magnitude UnpackedFloat.roundWithAccuracy
  dsimp only
  rw [← hRounded] at hHigh hFull ⊢
  rw [hExponent]
  generalize (UnpackedFloat.shiftToTargetExponent spec mantissa exponent accuracy).1.roundedMantissa = n at hHigh hFull ⊢
  generalize place spec.mantissaBits spec.minExponent (x * 2 ^ exponent) = k at hLeast hFull ⊢
  have hNat : n ≤ 2 ^ spec.mantissaBits := by exact_mod_cast hHigh
  rw [shiftToTargetExponent_rounded hNat hLeast]
  obtain ⟨d, hDigits⟩ := Nat.exists_eq_succ_of_ne_zero hBits.ne'
  split
  · rename_i hPower
    have hTop : 0 < 2 ^ (spec.mantissaBits - 1) := by positivity
    rw [dif_neg hTop.ne']
    constructor
    · refine ⟨?_, by omega, fun _ => le_rfl⟩
      change 2 ^ (spec.mantissaBits - 1) < 2 ^ spec.mantissaBits
      exact Nat.pow_lt_pow_right (by norm_num) (by omega)
    · rw [value, apply_eq, hPower, hDigits, Nat.succ_sub_one]
      push_cast
      rw [zpow_add_one₀ two_ne_zero, pow_succ]
      ring
  · rename_i hPower
    split
    · rename_i hZero
      change n = 0 at hZero
      rw [hZero]
      exact ⟨trivial, by simp [value]⟩
    · constructor
      · refine ⟨lt_of_le_of_ne hNat hPower, hLeast, ?_⟩
        intro hMore
        exact_mod_cast hFull hMore
      · rw [value, apply_eq]
        push_cast
        ring

theorem decreaseExponent_spec (mantissa : ℕ) (exponent target : ℤ) :
    ((UnpackedFloat.decreaseExponent mantissa exponent target).1 : ℚ) *
        2 ^ (UnpackedFloat.decreaseExponent mantissa exponent target).2 = mantissa * 2 ^ exponent ∧
      (UnpackedFloat.decreaseExponent mantissa exponent target).2 = min exponent target := by
  unfold UnpackedFloat.decreaseExponent
  dsimp only
  constructor
  · generalize (exponent - target).toNat = n
    rw [Nat.shiftLeft_eq]
    push_cast
    rw [zpow_sub₀ two_ne_zero, zpow_natCast]
    field_simp
  · omega

theorem round_spec (spec : Format) (sign : Sign) (exponent : ℤ) (hPos : 0 < mantissa) :
    Canonical spec (UnpackedFloat.round spec sign mantissa exponent) ∧
      value (UnpackedFloat.round spec sign mantissa exponent) =
        sign.apply 1 * magnitude spec.mantissaBits spec.minExponent (mantissa * 2 ^ exponent) := by
  obtain ⟨hValue, hExponent⟩ := decreaseExponent_spec mantissa exponent
    (spec.targetExponent (totalExponent mantissa exponent))
  have hMantissa : (0 : ℚ) < mantissa := by exact_mod_cast hPos
  have hDecreased : 0 < (UnpackedFloat.decreaseExponent mantissa exponent
      (spec.targetExponent (totalExponent mantissa exponent))).1 := by
    unfold UnpackedFloat.decreaseExponent
    dsimp only
    rw [Nat.shiftLeft_eq]
    positivity
  unfold UnpackedFloat.round
  dsimp only
  rw [← hValue]
  refine roundWithAccuracy_spec sign (.exact _) (by exact_mod_cast hDecreased) (.inl hDecreased) ?_
  rw [hValue, hExponent, targetExponent_eq hPos]
  exact min_le_right ..

end Round

/-! ## Differences -/

section Difference
variable {spec : Format} {u v : UnpackedFloat}

theorem isFinite_round (sign : Sign) (mantissa : ℕ) (exponent : ℤ) :
    (UnpackedFloat.round spec sign mantissa exponent).isFinite = true := by
  unfold UnpackedFloat.round UnpackedFloat.roundWithAccuracy
  dsimp only
  split <;> rfl

theorem normalize_spec (spec : Format) (mantissa exponent : ℤ) (sign : Sign) :
    (UnpackedFloat.normalize spec mantissa exponent sign).isFinite = true ∧
      Canonical spec (UnpackedFloat.normalize spec mantissa exponent sign) ∧
      value (UnpackedFloat.normalize spec mantissa exponent sign) =
        rounded spec.mantissaBits spec.minExponent (mantissa * 2 ^ exponent) := by
  have hPower : (0 : ℚ) < 2 ^ exponent := by positivity
  unfold UnpackedFloat.normalize
  split
  · rename_i hOrder
    have hNegative : mantissa < 0 := Int.compare_eq_lt.mp hOrder
    obtain ⟨hCanonical, hValue⟩ := round_spec spec .negative exponent
      (show 0 < (-mantissa).toNat by omega)
    have hCast : ((-mantissa).toNat : ℚ) = -mantissa := by
      have hInt : ((-mantissa).toNat : ℤ) = -mantissa := Int.toNat_of_nonneg (by omega)
      exact_mod_cast hInt
    have hProduct : (mantissa : ℚ) * 2 ^ exponent < 0 := by
      have hRat : (mantissa : ℚ) < 0 := by exact_mod_cast hNegative
      nlinarith
    refine ⟨isFinite_round .., hCanonical, ?_⟩
    rw [hValue, hCast, neg_mul, rounded, if_pos hProduct]
    change ((-1 : ℤ) : ℚ) * _ = _
    push_cast
    ring
  · rename_i hOrder
    rw [Int.compare_eq_eq.mp hOrder]
    exact ⟨rfl, trivial, by simp [value, rounded]⟩
  · rename_i hOrder
    have hPositive : 0 < mantissa := Int.compare_eq_gt.mp hOrder
    obtain ⟨hCanonical, hValue⟩ := round_spec spec .positive exponent
      (show 0 < mantissa.toNat by omega)
    have hCast : (mantissa.toNat : ℚ) = mantissa := by
      have hInt : (mantissa.toNat : ℤ) = mantissa := Int.toNat_of_nonneg (by omega)
      exact_mod_cast hInt
    have hProduct : ¬(mantissa : ℚ) * 2 ^ exponent < 0 := by
      have hRat : (0 : ℚ) < mantissa := by exact_mod_cast hPositive
      nlinarith
    refine ⟨isFinite_round .., hCanonical, ?_⟩
    rw [hValue, hCast, rounded, if_neg hProduct]
    change ((1 : ℤ) : ℚ) * _ = _
    push_cast
    ring

/-- What the format has is not rounded. -/
theorem Canonical.magnitude_eq {sign : Sign} {mantissa : ℕ} {exponent : ℤ} {hPos : 0 < mantissa}
    (h : Canonical spec (.finite sign mantissa exponent hPos)) :
    magnitude spec.mantissaBits spec.minExponent (mantissa * 2 ^ exponent) = mantissa * 2 ^ exponent := by
  obtain ⟨hMantissa, hLeast, -⟩ := h
  have hLog : mantissa.log2 < spec.mantissaBits := (Nat.log2_lt hPos.ne').mpr hMantissa
  have hPlace : place spec.mantissaBits spec.minExponent (((mantissa : ℤ) : ℚ) * 2 ^ exponent) ≤ exponent := by
    rw [Int.cast_natCast, place, int_log_eq hPos]
    omega
  exact_mod_cast magnitude_of_multiple hPlace

theorem neg_apply (sign : Sign) (n : ℤ) : (-sign).apply n = -sign.apply n := by
  cases sign with
  | negative => exact (neg_neg n).symm
  | positive => rfl

theorem Canonical.rounded_eq (h : Canonical spec u) :
    rounded spec.mantissaBits spec.minExponent (value u) = value u ∧
      rounded spec.mantissaBits spec.minExponent (-value u) = -value u := by
  cases u with
  | finite sign mantissa exponent hPos =>
    have hMantissa : (0 : ℚ) < mantissa := by exact_mod_cast hPos
    have hValue : (0 : ℚ) < mantissa * 2 ^ exponent := by positivity
    have hMagnitude := h.magnitude_eq
    have hPositive : rounded spec.mantissaBits spec.minExponent (mantissa * 2 ^ exponent) = mantissa * 2 ^ exponent := by
      rw [rounded, if_neg (not_lt.mpr hValue.le), hMagnitude]
    have hNegative : rounded spec.mantissaBits spec.minExponent (-(mantissa * 2 ^ exponent)) = -(mantissa * 2 ^ exponent) := by
      rw [rounded, if_pos (neg_lt_zero.mpr hValue), neg_neg, hMagnitude]
    cases sign with
    | positive => exact ⟨hPositive, hNegative⟩
    | negative =>
      have hSign : value (.finite .negative mantissa exponent hPos) = -(mantissa * 2 ^ exponent) := by
        change ((-(mantissa : ℤ) : ℤ) : ℚ) * 2 ^ exponent = _
        push_cast
        ring
      rw [hSign, neg_neg]
      exact ⟨hNegative, hPositive⟩
  | notANumber | infinity | zero => simp [value, rounded]

/-- The difference is the exact one, rounded once. -/
theorem sub_spec (hu : u.isFinite = true) (hv : v.isFinite = true) (hCanonicalU : Canonical spec u)
    (hCanonicalV : Canonical spec v) :
    (UnpackedFloat.sub spec u v).isFinite = true ∧ Canonical spec (UnpackedFloat.sub spec u v) ∧
      value (UnpackedFloat.sub spec u v) = rounded spec.mantissaBits spec.minExponent (value u - value v) := by
  have hZero (sign : Sign) : value (.zero sign) = 0 := rfl
  cases u with
  | notANumber | infinity => cases hu
  | zero sign =>
    cases v with
    | notANumber | infinity => cases hv
    | zero sign' =>
      rw [hZero, hZero, sub_zero, rounded, if_neg (lt_irrefl 0), magnitude_zero]
      unfold UnpackedFloat.sub
      dsimp only
      split <;> exact ⟨rfl, trivial, rfl⟩
    | finite sign' mantissa exponent hPos =>
      rw [hZero, zero_sub, hCanonicalV.rounded_eq.2]
      refine ⟨rfl, hCanonicalV, ?_⟩
      change (((-sign').apply mantissa : ℤ) : ℚ) * 2 ^ exponent = -((sign'.apply mantissa : ℤ) * 2 ^ exponent)
      rw [neg_apply]
      push_cast
      ring
  | finite sign mantissa exponent hPos =>
    cases v with
    | notANumber | infinity => cases hv
    | zero sign' =>
      rw [hZero, sub_zero, hCanonicalU.rounded_eq.1]
      exact ⟨rfl, hCanonicalU, rfl⟩
    | finite sign' mantissa' exponent' hPos' =>
      obtain ⟨hLeft, hLeftExponent⟩ := decreaseExponent_spec mantissa exponent
        (min exponent exponent')
      obtain ⟨hRight, hRightExponent⟩ := decreaseExponent_spec mantissa' exponent'
        (min exponent exponent')
      obtain ⟨hFinite, hCanonical, hValue⟩ := normalize_spec spec
        (sign.apply (UnpackedFloat.decreaseExponent mantissa exponent (min exponent exponent')).1 -
          sign'.apply (UnpackedFloat.decreaseExponent mantissa' exponent' (min exponent exponent')).1)
        (min exponent exponent') .positive
      refine ⟨hFinite, hCanonical, hValue.trans ?_⟩
      congr 1
      rw [show min exponent (min exponent exponent') = min exponent exponent' by omega] at hLeftExponent
      rw [show min exponent' (min exponent exponent') = min exponent exponent' by omega] at hRightExponent
      rw [hLeftExponent] at hLeft
      rw [hRightExponent] at hRight
      rw [apply_eq sign, apply_eq sign', value, value, apply_eq sign mantissa, apply_eq sign' mantissa']
      push_cast
      rw [sub_mul, mul_assoc, mul_assoc, hLeft, hRight, mul_assoc, mul_assoc]

end Difference

end RoundedFloat
