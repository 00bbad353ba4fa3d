import Mathlib.Algebra.Order.Field.Power
import Mathlib.Algebra.Order.Floor.Ring
import Mathlib.Algebra.Ring.Int.Parity
import Mathlib.Data.Int.Log
import Mathlib.Data.Rat.Floor
import Mathlib.Tactic.Linarith
import Mathlib.Tactic.NormNum
import Mathlib.Tactic.Ring

/-! # Rounding to nearest, ties to even

Rounding of a rational number to an integer, and to a binary number of bounded precision whose last digit is
worth at least a given power of two. Both keep the order and what they can represent.
-/
namespace NearestEven
set_option autoImplicit false

variable {x y : ℚ}

/-! ## To an integer -/

def nearest (x : ℚ) : ℤ :=
  if 2 * (x - ⌊x⌋) < 1 ∨ (2 * (x - ⌊x⌋) = 1 ∧ ⌊x⌋ % 2 = 0) then ⌊x⌋ else ⌊x⌋ + 1

theorem floor_le_nearest (x : ℚ) : ⌊x⌋ ≤ nearest x := by
  unfold nearest
  split <;> omega

theorem nearest_le_floor_add_one (x : ℚ) : nearest x ≤ ⌊x⌋ + 1 := by
  unfold nearest
  split <;> omega

@[simp] theorem nearest_intCast (n : ℤ) : nearest (n : ℚ) = n := by
  simp [nearest]

theorem abs_nearest_sub_le (x : ℚ) : |(nearest x : ℚ) - x| ≤ 1 / 2 := by
  have hLow := Int.floor_le x
  have hHigh := Int.lt_floor_add_one x
  rw [abs_le]
  unfold nearest
  split
  · rename_i hBelow
    have hHalf : 2 * (x - ⌊x⌋) ≤ 1 := by
      rcases hBelow with hLt | ⟨hTie, -⟩
      · exact hLt.le
      · exact hTie.le
    constructor <;> linarith
  · rename_i hAbove
    have hHalf : 1 ≤ 2 * (x - ⌊x⌋) := not_lt.mp fun hLt => hAbove (.inl hLt)
    push_cast
    constructor <;> linarith

theorem abs_nearest_sub_le_abs (x : ℚ) (n : ℤ) : |(nearest x : ℚ) - x| ≤ |n - x| := by
  have hHalf := abs_nearest_sub_le x
  rcases eq_or_ne n (nearest x) with rfl | hOther
  · exact le_rfl
  · have hApart : (1 : ℚ) ≤ |(n : ℚ) - nearest x| := by
      exact_mod_cast Int.one_le_abs (sub_ne_zero.mpr hOther)
    have hTriangle := abs_sub_le (n : ℚ) x (nearest x)
    rw [abs_sub_comm x] at hTriangle
    linarith

theorem nearest_mono (h : x ≤ y) : nearest x ≤ nearest y := by
  rcases (Int.floor_mono h).eq_or_lt with hFloor | hFloor
  · unfold nearest
    rw [hFloor]
    split
    · split <;> omega
    · rename_i hAbove
      rw [if_neg]
      rintro (hBelow | ⟨hTie, hEven⟩)
      · exact hAbove (.inl (by linarith))
      · rcases h.eq_or_lt with rfl | hLt
        · exact hAbove (.inr ⟨hTie, hEven⟩)
        · exact hAbove (.inl (by linarith))
  · have hLow := nearest_le_floor_add_one x
    have hHigh := floor_le_nearest y
    omega

/-- A number goes up to an even one from one half below it on. -/
theorem nearest_lt_iff {n : ℤ} (hEven : n % 2 = 0) : nearest x < n ↔ x < n - 1 / 2 := by
  have hHalf : nearest (n - 1 / 2) = n := by
    have hFloor : ⌊(n : ℚ) - 1 / 2⌋ = n - 1 := by
      rw [Int.floor_eq_iff]
      push_cast
      constructor <;> linarith
    rw [nearest, hFloor, if_neg, sub_add_cancel]
    rintro (hBelow | ⟨-, hOdd⟩)
    · push_cast at hBelow
      linarith
    · omega
  constructor
  · intro h
    by_contra hLess
    have hMono := nearest_mono (not_lt.mp hLess)
    omega
  · intro h
    have hFloor : ⌊x⌋ < n := by
      rw [Int.floor_lt]
      linarith
    rcases (show ⌊x⌋ = n - 1 ∨ ⌊x⌋ < n - 1 by omega) with hFloor | hFloor
    · rw [nearest, if_pos]
      · omega
      · left
        rw [hFloor]
        push_cast
        linarith
    · have hHigh := nearest_le_floor_add_one x
      omega

/-! ## To a binary number

`precision` digits, the last of them worth `2 ^ least` or more.
-/

section Binary
variable (precision : ℕ) (least : ℤ)

/-- The place of the last digit of what a positive number is rounded to. -/
def place (x : ℚ) : ℤ := max (Int.log 2 x + 1 - precision) least

/-- The rounding of a number that is not negative. -/
def magnitude (x : ℚ) : ℚ := nearest (x / 2 ^ place precision least x) * 2 ^ place precision least x

def rounded (x : ℚ) : ℚ := if x < 0 then -magnitude precision least (-x) else magnitude precision least x

theorem place_mono (hPos : 0 < x) (h : x ≤ y) : place precision least x ≤ place precision least y := by
  have hLog := Int.log_mono_right (b := 2) hPos h
  unfold place
  omega

variable {precision least}

/-- A multiple of what the last digit is worth, in digits of that place. -/
theorem multiple_div {n k place' : ℤ} (h : k ≤ place') :
    ∃ m : ℤ, (n * 2 ^ place' : ℚ) / 2 ^ k = m ∧ (m * 2 ^ k : ℚ) = n * 2 ^ place' := by
  obtain ⟨d, rfl⟩ := Int.le.dest h
  have hQuotient : (n * 2 ^ (k + d) : ℚ) / 2 ^ k = ((n * 2 ^ d : ℤ) : ℚ) := by
    rw [zpow_add₀ two_ne_zero]
    push_cast
    field_simp
    simp
  refine ⟨n * 2 ^ d, hQuotient, ?_⟩
  rw [← hQuotient]
  field_simp

/-- Rounding does not cross a multiple of what the last digit is worth. -/
theorem magnitude_le {n k : ℤ} (hPlace : place precision least x ≤ k) (h : x ≤ n * 2 ^ k) :
    magnitude precision least x ≤ n * 2 ^ k := by
  obtain ⟨m, hQuotient, hMultiple⟩ := multiple_div (n := n) hPlace
  have hScaled : x / 2 ^ place precision least x ≤ m := by
    rw [← hQuotient]
    gcongr
  have hNearest := nearest_mono hScaled
  rw [nearest_intCast] at hNearest
  rw [magnitude, ← hMultiple]
  gcongr

theorem le_magnitude {n k : ℤ} (hPlace : place precision least x ≤ k) (h : n * 2 ^ k ≤ x) :
    n * 2 ^ k ≤ magnitude precision least x := by
  obtain ⟨m, hQuotient, hMultiple⟩ := multiple_div (n := n) hPlace
  have hScaled : m ≤ x / 2 ^ place precision least x := by
    rw [← hQuotient]
    gcongr
  have hNearest := nearest_mono hScaled
  rw [nearest_intCast] at hNearest
  rw [magnitude, ← hMultiple]
  gcongr

theorem magnitude_of_multiple {n k : ℤ} (hPlace : place precision least (n * 2 ^ k) ≤ k) :
    magnitude precision least (n * 2 ^ k) = n * 2 ^ k :=
  le_antisymm (magnitude_le hPlace le_rfl) (le_magnitude hPlace le_rfl)

variable (precision least) in
theorem magnitude_nonneg (h : 0 ≤ x) : 0 ≤ magnitude precision least x := by
  have hZero : ((0 : ℤ) : ℚ) * 2 ^ place precision least x = 0 := by simp
  have hBound := le_magnitude (le_refl (place precision least x)) (hZero.le.trans h)
  rwa [hZero] at hBound

variable (least) in
theorem magnitude_mono (hPrecision : 0 < precision) (hPos : 0 < x) (h : x ≤ y) :
    magnitude precision least x ≤ magnitude precision least y := by
  rcases (place_mono precision least hPos h).eq_or_lt with hPlace | hPlace
  · unfold magnitude
    rw [hPlace]
    gcongr
    apply nearest_mono
    gcongr
  · -- The greater number has a digit above all those of the smaller one, and the two are rounded on either side of it.
    have hLog : Int.log 2 x + 1 ≤ Int.log 2 y := by
      unfold place at hPlace
      omega
    have hBelow : x < 2 ^ (Int.log 2 x + 1) := Int.lt_zpow_succ_log_self (by norm_num) x
    have hAbove : (2 : ℚ) ^ Int.log 2 y ≤ y := Int.zpow_log_le_self (by norm_num) (hPos.trans_le h)
    have hDigit : (2 : ℚ) ^ (Int.log 2 x + 1) ≤ 2 ^ Int.log 2 y := by
      gcongr
      norm_num
    have hPlaces : place precision least y ≤ Int.log 2 y := by
      unfold place at hPlace ⊢
      omega
    calc magnitude precision least x
      _ ≤ (1 : ℤ) * 2 ^ Int.log 2 y := magnitude_le (by omega) (by push_cast; linarith)
      _ ≤ magnitude precision least y := le_magnitude hPlaces (by push_cast; linarith)

@[simp] theorem magnitude_zero : magnitude precision least 0 = 0 := by
  have hZero : nearest 0 = 0 := nearest_intCast 0
  rw [magnitude, zero_div, hZero, Int.cast_zero, zero_mul]

variable (least) in
theorem rounded_mono (hPrecision : 0 < precision) (h : x ≤ y) :
    rounded precision least x ≤ rounded precision least y := by
  unfold rounded
  rcases lt_or_ge x 0 with hx | hx
  · rw [if_pos hx]
    have hNegated := magnitude_nonneg precision least (neg_nonneg.mpr hx.le)
    rcases lt_or_ge y 0 with hy | hy
    · rw [if_pos hy]
      have hMono := magnitude_mono least hPrecision (neg_pos.mpr hy) (neg_le_neg h)
      linarith
    · rw [if_neg (not_lt.mpr hy)]
      have hNonneg := magnitude_nonneg precision least hy
      linarith
  · rw [if_neg (not_lt.mpr hx), if_neg (not_lt.mpr (hx.trans h))]
    rcases hx.eq_or_lt with rfl | hPos
    · rw [magnitude_zero]
      exact magnitude_nonneg precision least h
    · exact magnitude_mono least hPrecision hPos h

theorem place_zpow (k : ℤ) : place precision least (2 ^ k) = max (k + 1 - precision) least := by
  have hLog : Int.log 2 (((2 : ℕ) : ℚ) ^ k) = k := Int.log_zpow (by norm_num) k
  rw [place]
  push_cast at hLog
  rw [hLog]

theorem magnitude_zpow (hPrecision : 0 < precision) {k : ℤ} (hLeast : least ≤ k) :
    magnitude precision least (2 ^ k) = 2 ^ k := by
  have hPlace : place precision least ((1 : ℤ) * 2 ^ k) ≤ k := by
    rw [Int.cast_one, one_mul, place_zpow]
    omega
  simpa using magnitude_of_multiple hPlace

/-- No multiple of the smallest step is lost, whatever its sign. -/
theorem rounded_nonneg_iff (hPrecision : 0 < precision) (n : ℤ) :
    0 ≤ rounded precision least (n * 2 ^ least) ↔ (0 : ℚ) ≤ n * 2 ^ least := by
  unfold rounded
  split
  · rename_i hNegative
    have hStep : (2 : ℚ) ^ least ≤ -(n * 2 ^ least) := by
      have hSign : (n : ℚ) < 0 := by
        by_contra hNonneg
        have hProduct : (0 : ℚ) ≤ n * 2 ^ least := mul_nonneg (not_lt.mp hNonneg) (by positivity)
        linarith
      have hWhole : (n : ℚ) ≤ -1 := by
        have hInt : n < 0 := by exact_mod_cast hSign
        exact_mod_cast (show n ≤ -1 by omega)
      have hPower : (0 : ℚ) < 2 ^ least := by positivity
      nlinarith
    have hPower : (0 : ℚ) < 2 ^ least := by positivity
    have hMono := magnitude_mono least hPrecision hPower hStep
    rw [magnitude_zpow hPrecision le_rfl] at hMono
    constructor
    · intro h
      linarith
    · intro h
      linarith
  · rename_i hNonneg
    have hNonneg := not_lt.mp hNonneg
    exact ⟨fun _ => hNonneg, fun _ => magnitude_nonneg precision least hNonneg⟩

theorem magnitude_lt_zpow_of_lt_half (hPrecision : 0 < precision) {k : ℤ} (hLeast : least ≤ k - precision) (hPos : 0 < x)
    (h : x < 2 ^ (k - 1)) : magnitude precision least x < 2 ^ k ∧ x < 2 ^ k - 2 ^ (k - precision - 1) := by
  have hTop : (0 : ℚ) < 2 ^ (k - 1) := by positivity
  have hHalf : (2 : ℚ) ^ k = 2 ^ (k - 1) + 2 ^ (k - 1) := by
    rw [← mul_two, ← zpow_add_one₀ two_ne_zero, sub_add_cancel]
  have hStep : (2 : ℚ) ^ (k - precision - 1) ≤ 2 ^ (k - 1) := by
    gcongr
    · norm_num
    · omega
  have hLog : Int.log 2 x < k - 1 := by
    rw [← Int.lt_zpow_iff_log_lt (by norm_num) hPos]
    exact_mod_cast h
  have hPlace : place precision least x ≤ k - 1 := by
    unfold place
    omega
  have hRounded := magnitude_le (n := 1) hPlace (by push_cast; linarith)
  push_cast at hRounded
  constructor
  · linarith
  · linarith

/-- Where the mantissa fills the format, what is half a step or less below the power is rounded up to it. -/
theorem magnitude_lt_zpow_iff_of_half_le (hPrecision : 0 < precision) {k : ℤ} (hLeast : least ≤ k - precision) (hPos : 0 < x)
    (hLow : 2 ^ (k - 1) ≤ x) (hHigh : x < 2 ^ k) :
    magnitude precision least x < 2 ^ k ↔ x < 2 ^ k - 2 ^ (k - precision - 1) := by
  have hPlace : place precision least x = k - precision := by
    have hAtLeast : k - 1 ≤ Int.log 2 x := by
      rw [← Int.zpow_le_iff_le_log (by norm_num) hPos]
      exact_mod_cast hLow
    have hAtMost : Int.log 2 x < k := by
      rw [← Int.lt_zpow_iff_log_lt (by norm_num) hPos]
      exact_mod_cast hHigh
    unfold place
    omega
  have hSplit : (2 : ℚ) ^ k = ((2 ^ precision : ℤ) : ℚ) * 2 ^ (k - precision) := by
    push_cast
    rw [← zpow_natCast, ← zpow_add₀ two_ne_zero, add_sub_cancel]
  have hStep : (2 : ℚ) ^ (k - precision - 1) = 1 / 2 * 2 ^ (k - precision) := by
    rw [zpow_sub_one₀ two_ne_zero]
    ring
  have hEven : (2 ^ precision : ℤ) % 2 = 0 := by
    obtain ⟨d, rfl⟩ := Nat.exists_eq_succ_of_ne_zero hPrecision.ne'
    rw [pow_succ, Int.mul_emod_left]
  have hUnit : (0 : ℚ) < 2 ^ (k - precision) := by positivity
  rw [magnitude, hPlace, hSplit, hStep, ← sub_mul, mul_lt_mul_iff_left₀ hUnit, Int.cast_lt, nearest_lt_iff hEven,
    div_lt_iff₀ hUnit]

/-- What is rounded to a power of two, and not to a number below it. -/
theorem magnitude_lt_zpow_iff (hPrecision : 0 < precision) {k : ℤ} (hLeast : least ≤ k - precision) (hPos : 0 < x) :
    magnitude precision least x < 2 ^ k ↔ x < 2 ^ k - 2 ^ (k - precision - 1) := by
  rcases lt_or_ge x (2 ^ (k - 1)) with hSmall | hLarge
  · obtain ⟨hRounded, hBelow⟩ := magnitude_lt_zpow_of_lt_half hPrecision hLeast hPos hSmall
    exact iff_of_true hRounded hBelow
  · rcases lt_or_ge x (2 ^ k) with hBelow | hAbove
    · exact magnitude_lt_zpow_iff_of_half_le hPrecision hLeast hPos hLarge hBelow
    · have hPower : (0 : ℚ) < 2 ^ (k - precision - 1) := by positivity
      have hMono := magnitude_mono least hPrecision (by positivity) hAbove
      rw [magnitude_zpow hPrecision (by omega)] at hMono
      constructor
      · intro h
        linarith
      · intro h
        linarith

/-- Half of what the last digit is worth. -/
theorem abs_magnitude_sub_le {k : ℤ} (hLeast : least ≤ k - precision) (hPos : 0 < x) (h : x < 2 ^ k) :
    |magnitude precision least x - x| ≤ 2 ^ (k - precision - 1) := by
  have hPlace : place precision least x ≤ k - precision := by
    have hLog : Int.log 2 x < k := by
      rw [← Int.lt_zpow_iff_log_lt (by norm_num) hPos]
      exact_mod_cast h
    unfold place
    omega
  have hUnit : (0 : ℚ) < 2 ^ place precision least x := by positivity
  have hScaled : magnitude precision least x - x =
      (nearest (x / 2 ^ place precision least x) - x / 2 ^ place precision least x) * 2 ^ place precision least x := by
    rw [magnitude, sub_mul, div_mul_cancel₀ x hUnit.ne']
  rw [hScaled, abs_mul, abs_of_pos hUnit]
  calc |(nearest (x / 2 ^ place precision least x) : ℚ) - x / 2 ^ place precision least x| * 2 ^ place precision least x
    _ ≤ 1 / 2 * 2 ^ place precision least x := by
      gcongr
      exact abs_nearest_sub_le _
    _ ≤ 1 / 2 * 2 ^ (k - precision) := by
      gcongr
      norm_num
    _ = 2 ^ (k - precision - 1) := by
      rw [zpow_sub_one₀ two_ne_zero]
      ring

/-- No multiple of what the last digit is worth is nearer. -/
theorem abs_magnitude_sub_le_multiple {n k : ℤ} (hPlace : place precision least x ≤ k) :
    |magnitude precision least x - x| ≤ |n * 2 ^ k - x| := by
  obtain ⟨m, hQuotient, hMultiple⟩ := multiple_div (n := n) hPlace
  have hUnit : (0 : ℚ) < 2 ^ place precision least x := by positivity
  have hScaled (j : ℤ) : |j * 2 ^ place precision least x - x| =
      |j - x / 2 ^ place precision least x| * 2 ^ place precision least x := by
    rw [← abs_of_pos hUnit, ← abs_mul, sub_mul, abs_of_pos hUnit, div_mul_cancel₀ x hUnit.ne']
  rw [magnitude, ← hMultiple, hScaled, hScaled]
  exact mul_le_mul_of_nonneg_right (abs_nearest_sub_le_abs _ m) hUnit.le

/-- No number of the format is nearer. -/
theorem abs_magnitude_sub_le_abs (hPrecision : 0 < precision) (hPos : 0 < x)
    (hFormat : magnitude precision least y = y) : |magnitude precision least x - x| ≤ |y - x| := by
  rcases le_or_gt (place precision least x) (place precision least y) with hPlace | hPlace
  · have hMultiple := abs_magnitude_sub_le_multiple (n := nearest (y / 2 ^ place precision least y)) hPlace
    rwa [show (nearest (y / 2 ^ place precision least y) : ℚ) * 2 ^ place precision least y = y from hFormat] at hMultiple
  · -- The smaller number is beneath a power of two that is between the two and of the format as well.
    have hLog : Int.log 2 y < Int.log 2 x := by
      unfold place at hPlace
      omega
    have hBelow : y < 2 ^ (Int.log 2 y + 1) := Int.lt_zpow_succ_log_self (by norm_num) y
    have hPower : (2 : ℚ) ^ (Int.log 2 y + 1) ≤ 2 ^ Int.log 2 x := zpow_le_zpow_right₀ (by norm_num) hLog
    have hAbove : (2 : ℚ) ^ Int.log 2 x ≤ x := Int.zpow_log_le_self (by norm_num) hPos
    have hPlaces : place precision least x ≤ Int.log 2 x := by
      unfold place at hPlace ⊢
      omega
    have hMultiple := abs_magnitude_sub_le_multiple (n := 1) hPlaces
    rw [Int.cast_one, one_mul, abs_of_nonpos (show (2 : ℚ) ^ Int.log 2 x - x ≤ 0 by linarith)] at hMultiple
    rw [abs_of_nonpos (show y - x ≤ 0 by linarith)]
    linarith

variable (precision least) in
/-- A whole number is rounded to a whole number. -/
theorem exists_magnitude_natCast (n : ℕ) : ∃ m : ℤ, magnitude precision least n = m := by
  rcases le_total (place precision least (n : ℚ)) 0 with hPlace | hPlace
  · have hExact := magnitude_of_multiple (n := n) (k := 0) (by simpa using hPlace)
    exact ⟨n, by simpa using hExact⟩
  · obtain ⟨d, hd⟩ := Int.eq_ofNat_of_zero_le hPlace
    refine ⟨nearest ((n : ℚ) / 2 ^ place precision least (n : ℚ)) * 2 ^ d, ?_⟩
    rw [magnitude, hd, zpow_natCast]
    push_cast
    rfl

end Binary

end NearestEven
