import RoveMapping.Library.Decimal
import RoveMapping.Library.FloatProducts
import RoveMapping.Library.PythonFloat
import RoveMapping.Library.PythonText
import RoveMapping.Library.ZeroFloat

/-! # Floats printed with a fixed number of digits

`"%.<digits>f" % x`, and what `float` makes of it: the float nearest to the decimal number that was printed.
-/
namespace PrintedFloat
open Binary64 NearestEven
set_option autoImplicit false

/-- Whether a minus sign is printed. -/
def negative (x : Float) : Bool :=
  match x.toModel.unpack with
  | .infinity .negative | .zero .negative | .finite .negative _ _ _ => true
  | _ => false

def size (digits : ℕ) (x : Float) : List Char :=
  if x.isNaN then "nan".toList else if x.isInf then "inf".toList else (Decimal.fixed digits |toRat x|).toList

/-- `"%.<digits>f" % x`; a NaN has no sign. -/
def fixed (digits : ℕ) (x : Float) : List Char := if negative x then '-' :: size digits x else size digits x

example : ([-0.0000000004, 1700000000.25, 1 / 0, -1 / 0, 0 / 0].map (fixed 9)) =
    ["-0.000000000".toList, "1700000000.250000000".toList, "inf".toList, "-inf".toList, "nan".toList] := by decide +kernel

/-! ## The decimal number -/

section Decimal
variable {x y : ℚ}

theorem roundHalfEven_eq (x : ℚ) : Decimal.roundHalfEven x = nearest x := by
  unfold Decimal.roundHalfEven nearest
  dsimp only
  split
  · rw [if_pos (.inl (by linarith))]
  · split
    · rw [if_neg]
      rintro (hBelow | ⟨hTie, -⟩) <;> linarith
    · have hTie : 2 * (x - ⌊x⌋) = 1 := by linarith
      split
      · rename_i hEven
        rw [if_pos (.inr ⟨hTie, hEven⟩)]
      · rename_i hOdd
        rw [if_neg]
        rintro (hBelow | ⟨-, hEven⟩)
        · linarith
        · exact hOdd hEven

/-- The nearest decimal number with so many digits behind the point. -/
def decimal (digits : ℕ) (x : ℚ) : ℚ := if x < 0 then -Decimal.roundTo digits (-x) else Decimal.roundTo digits x

variable (digits : ℕ)

theorem abs_roundTo_sub_le (x : ℚ) : |Decimal.roundTo digits x - x| ≤ 1 / 2 / 10 ^ digits := by
  have hScale : (0 : ℚ) < 10 ^ digits := by positivity
  have hScaled : Decimal.roundTo digits x - x = (nearest (x * 10 ^ digits) - x * 10 ^ digits) / 10 ^ digits := by
    rw [Decimal.roundTo, roundHalfEven_eq]
    field_simp
  rw [hScaled, abs_div, abs_of_pos hScale]
  gcongr
  exact abs_nearest_sub_le _

theorem roundTo_mono (h : x ≤ y) : Decimal.roundTo digits x ≤ Decimal.roundTo digits y := by
  rw [Decimal.roundTo, Decimal.roundTo, roundHalfEven_eq, roundHalfEven_eq]
  gcongr
  apply nearest_mono
  gcongr

theorem roundTo_nonneg (h : 0 ≤ x) : 0 ≤ Decimal.roundTo digits x := by
  have hMono := roundTo_mono digits h
  rwa [Decimal.roundTo, roundHalfEven_eq, zero_mul, show nearest 0 = 0 from nearest_intCast 0, Int.cast_zero, zero_div] at hMono

theorem decimal_of_nonneg (h : 0 ≤ x) : decimal digits x = Decimal.roundTo digits x := if_neg (not_lt.mpr h)

theorem decimal_neg (x : ℚ) : decimal digits (-x) = -decimal digits x := by
  have hZero : Decimal.roundTo digits 0 = 0 := by
    rw [Decimal.roundTo, roundHalfEven_eq, zero_mul, show nearest 0 = 0 from nearest_intCast 0, Int.cast_zero, zero_div]
  rcases lt_trichotomy x 0 with h | rfl | h
  · rw [decimal, decimal, if_neg (by linarith), if_pos h, neg_neg]
  · rw [neg_zero, decimal, if_neg (lt_irrefl 0), hZero, neg_zero]
  · rw [decimal, decimal, if_pos (by linarith), if_neg (by linarith), neg_neg]

theorem abs_decimal_sub_le (x : ℚ) : |decimal digits x - x| ≤ 1 / 2 / 10 ^ digits := by
  rcases lt_or_ge x 0 with h | h
  · rw [decimal, if_pos h, ← abs_neg, neg_sub, sub_neg_eq_add, add_comm, ← sub_neg_eq_add]
    exact abs_roundTo_sub_le digits (-x)
  · rw [decimal_of_nonneg digits h]
    exact abs_roundTo_sub_le digits x

theorem decimal_mono (h : x ≤ y) : decimal digits x ≤ decimal digits y := by
  unfold decimal
  split
  · split
    · exact neg_le_neg (roundTo_mono digits (neg_le_neg h))
    · have hLeft := roundTo_nonneg digits (x := -x) (by linarith)
      have hRight := roundTo_nonneg digits (x := y) (by linarith)
      linarith
  · rw [if_neg (by linarith)]
    exact roundTo_mono digits h

/-- What is printed as zero. -/
theorem decimal_eq_zero_iff (x : ℚ) : decimal digits x = 0 ↔ |x| ≤ 1 / 2 / 10 ^ digits := by
  have hScale : (0 : ℚ) < 10 ^ digits := by positivity
  have hTie : decimal digits (1 / 2 / 10 ^ digits) = 0 := by
    have hHalf : nearest (1 / 2) = 0 := by norm_num [nearest]
    rw [decimal_of_nonneg digits (by positivity), Decimal.roundTo, roundHalfEven_eq, div_mul_cancel₀ _ hScale.ne', hHalf,
      Int.cast_zero, zero_div]
  constructor
  · intro hZero
    have hNear := abs_decimal_sub_le digits x
    rwa [hZero, zero_sub, abs_neg] at hNear
  · intro hSmall
    obtain ⟨hLow, hHigh⟩ := abs_le.mp hSmall
    have hAbove := decimal_mono digits hHigh
    have hBelow := decimal_mono digits hLow
    rw [decimal_neg, hTie, neg_zero] at hBelow
    rw [hTie] at hAbove
    exact le_antisymm hAbove hBelow

theorem exists_decimal (x : ℚ) : ∃ n : ℤ, decimal digits x = n / 10 ^ digits := by
  unfold decimal
  rw [Decimal.roundTo, Decimal.roundTo, roundHalfEven_eq, roundHalfEven_eq]
  split
  · exact ⟨_, by rw [Int.cast_neg, neg_div]⟩
  · exact ⟨_, rfl⟩

/-- What is not zero has a last digit. -/
theorem le_abs_decimal (x : ℚ) (h : decimal digits x ≠ 0) : 1 / 10 ^ digits ≤ |decimal digits x| := by
  have hScale : (0 : ℚ) < 10 ^ digits := by positivity
  obtain ⟨n, hDigits⟩ := exists_decimal digits x
  rw [hDigits] at h ⊢
  have hNumber : n ≠ 0 := by
    rintro rfl
    rw [Int.cast_zero, zero_div] at h
    exact h rfl
  have hOne : (1 : ℚ) ≤ |(n : ℚ)| := by exact_mod_cast Int.one_le_abs hNumber
  rw [abs_div, abs_of_pos hScale]
  gcongr

end Decimal

/-! ## The text -/

section Text
open PythonFloat

theorem toAscii_of_isDigit {c : Char} (h : c.isDigit) : toAscii c = c := by
  simp only [Char.isDigit, Bool.and_eq_true, decide_eq_true_eq] at h
  have hLow : 48 ≤ c.toNat := h.1
  have hHigh : c.toNat ≤ 57 := h.2
  have hFind : zeros.find? (fun first => first ≤ c.toNat ∧ c.toNat < first + 10) = some 0x30 := by
    rw [zeros, List.find?_cons_of_pos]
    simp only [decide_eq_true_eq]
    omega
  simp only [toAscii, hFind]
  rw [show 48 + (c.toNat - 0x30) = c.toNat by omega, Char.ofNat_toNat]

theorem dropUnderscores_eq {previous : Char} {text : List Char} (hPrevious : previous ≠ '_') (h : ∀ c ∈ text, c ≠ '_') :
    dropUnderscores previous text = some text := by
  induction text generalizing previous with
  | nil => rw [dropUnderscores, if_neg hPrevious]
  | cons c rest ih =>
    rw [List.forall_mem_cons] at h
    rw [dropUnderscores, if_neg h.1, if_neg (fun hUnderscore => hPrevious hUnderscore.1), ih h.1 h.2, Option.map_some]

theorem toLower_of_isDigit {c : Char} (h : c.isDigit) : c.toLower = c := by
  simp only [Char.isDigit, Bool.and_eq_true, decide_eq_true_eq] at h
  have hHigh : c.toNat ≤ 57 := h.2
  have hUpper : ¬(65 ≤ c.toNat ∧ c.toNat ≤ 90) := by omega
  unfold Char.toLower
  exact dif_neg hUpper

/-- A text that begins with a digit is not one of the names. -/
theorem unsigned_of_isDigit {c : Char} (h : c.isDigit) (rest : List Char) :
    unsigned (c :: rest) = PythonFloat.decimal (c :: rest) := by
  have hOther {d : Char} {name : List Char} (hName : d.isDigit = false) : (c :: rest).map Char.toLower ≠ d :: name := by
    intro hSame
    rw [List.map_cons, toLower_of_isDigit h] at hSame
    rw [← (List.cons.inj hSame).1, h] at hName
    cases hName
  have hInf : (c :: rest).map Char.toLower ≠ "inf".toList := hOther (d := 'i') rfl
  have hInfinity : (c :: rest).map Char.toLower ≠ "infinity".toList := hOther (d := 'i') rfl
  have hNan : (c :: rest).map Char.toLower ≠ "nan".toList := hOther (d := 'n') rfl
  rw [unsigned, if_neg (not_or.mpr ⟨hInf, hInfinity⟩), if_neg hNan]

/-- A number that is written with digits and a point. -/
theorem unsigned_digits {whole fraction : List Char} (hNe : whole ≠ []) (hWhole : ∀ c ∈ whole, c.isDigit)
    (hFraction : ∀ c ∈ fraction, c.isDigit) :
    unsigned (whole ++ '.' :: fraction) =
      some (.ofModel (.ofScientific (Nat.ofDigitChars 10 (whole ++ fraction) 0) (-fraction.length))) := by
  obtain ⟨c, rest, rfl⟩ := List.exists_cons_of_ne_nil hNe
  have hTake : (c :: rest ++ '.' :: fraction).takeWhile Char.isDigit = c :: rest := by
    rw [List.takeWhile_append_of_pos hWhole]
    simp [Char.isDigit]
  have hDrop : (c :: rest ++ '.' :: fraction).dropWhile Char.isDigit = '.' :: fraction := by
    rw [List.dropWhile_append_of_pos hWhole]
    simp [Char.isDigit]
  have hFractionTake : fraction.takeWhile Char.isDigit = fraction := List.takeWhile_eq_self_iff.mpr hFraction
  have hFractionDrop : fraction.dropWhile Char.isDigit = [] := List.dropWhile_eq_nil_iff.mpr hFraction
  rw [List.cons_append, unsigned_of_isDigit (hWhole c List.mem_cons_self), ← List.cons_append, PythonFloat.decimal]
  simp only [hTake, hDrop, hFractionTake, hFractionDrop]
  rw [if_neg (by simp)]
  simp [decimalExponent]

/-- The digits of a whole number, around the point. -/
theorem toList_fixed {digits : ℕ} (hDigits : 0 < digits) (x : ℚ) :
    ∃ whole fraction : List Char, (Decimal.fixed digits x).toList = whole ++ '.' :: fraction ∧ whole ≠ [] ∧
      (∀ c ∈ whole, c.isDigit) ∧ (∀ c ∈ fraction, c.isDigit) ∧ fraction.length = digits ∧
      Nat.ofDigitChars 10 (whole ++ fraction) 0 = (Decimal.roundHalfEven (x * 10 ^ digits)).toNat := by
  rw [Decimal.fixed]
  generalize (Decimal.roundHalfEven (x * 10 ^ digits)).toNat = n
  have hChars : (Decimal.zeroPad digits (n % 10 ^ digits)).toList =
      List.replicate (digits - (toString (n % 10 ^ digits)).length) '0' ++ Nat.toDigits 10 (n % 10 ^ digits) := by
    simp [Decimal.zeroPad]
  have hLength : (toString (n % 10 ^ digits)).length = (Nat.toDigits 10 (n % 10 ^ digits)).length := by
    simp [toString, Nat.toList_repr, ← String.length_toList]
  have hFits : (Nat.toDigits 10 (n % 10 ^ digits)).length ≤ digits :=
    (Nat.length_toDigits_le_iff (by norm_num) hDigits).mpr (Nat.mod_lt _ (by positivity))
  have hDigit (m : ℕ) : ∀ c ∈ Nat.toDigits 10 m, c.isDigit := fun c => Nat.isDigit_of_mem_toDigits (by decide) (by decide)
  refine ⟨Nat.toDigits 10 (n / 10 ^ digits), (Decimal.zeroPad digits (n % 10 ^ digits)).toList, ?_, Nat.toDigits_ne_nil, hDigit _,
    ?_, ?_, ?_⟩
  · simp [toString, Nat.toList_repr]
  · rw [hChars]
    intro c hc
    rcases List.mem_append.mp hc with hZero | hNumber
    · rw [List.eq_of_mem_replicate hZero]
      decide
    · exact hDigit _ c hNumber
  · rw [hChars, List.length_append, List.length_replicate, hLength]
    omega
  · have hFraction : Nat.ofDigitChars 10 (Decimal.zeroPad digits (n % 10 ^ digits)).toList 0 = n % 10 ^ digits := by
      rw [hChars]
      simp [Nat.ofDigitChars_append]
    have hPadded : (Decimal.zeroPad digits (n % 10 ^ digits)).toList.length = digits := by
      rw [hChars, List.length_append, List.length_replicate, hLength]
      omega
    rw [Nat.ofDigitChars_append, Nat.ofDigitChars_ten_toDigits, Nat.ofDigitChars_eq_ofDigitChars_zero, hFraction, hPadded,
      Nat.div_add_mod]

/-- Digits, a point and a sign are read as they are. -/
theorem parse_of_plain {text : List Char} (hPlain : ∀ c ∈ text, c.isDigit ∨ c = '.' ∨ c = '-') :
    parse text = (unsigned (signed text).2).map fun size => if (signed text).1 then -size else size := by
  have hAscii : text.map toAscii = text := by
    refine (List.map_congr_left fun c hc => ?_).trans (List.map_id text)
    rcases hPlain c hc with hDigit | rfl | rfl
    · exact toAscii_of_isDigit hDigit
    · decide
    · decide
  have hUnderscore : ∀ c ∈ text, c ≠ '_' := by
    rintro c hc rfl
    exact absurd (hPlain _ hc) (by decide)
  rw [parse, hAscii, dropUnderscores_eq (by decide) hUnderscore]
  cases hSize : unsigned (signed text).2 with
  | none => simp [hSize]
  | some size => simp [hSize]

end Text

section Word
open PythonText

variable {digits : ℕ}

theorem plain_fixed (hDigits : 0 < digits) (q : ℚ) : ∀ c ∈ (Decimal.fixed digits q).toList, c.isDigit ∨ c = '.' ∨ c = '-' := by
  obtain ⟨whole, fraction, hText, -, hWhole, hFraction, -⟩ := toList_fixed hDigits q
  rw [hText]
  intro c hc
  rcases List.mem_append.mp hc with hLeft | hRight
  · exact .inl (hWhole c hLeft)
  · rcases List.mem_cons.mp hRight with rfl | hRest
    · exact .inr (.inl rfl)
    · exact .inl (hFraction c hRest)

theorem size_eq (digits : ℕ) (x : Float) :
    size digits x = ['n', 'a', 'n'] ∨ size digits x = ['i', 'n', 'f'] ∨ size digits x = (Decimal.fixed digits |toRat x|).toList := by
  unfold size
  split
  · exact .inl rfl
  · split
    · exact .inr (.inl rfl)
    · exact .inr (.inr rfl)

/-- A minus sign, a point, a digit or a letter of a name. -/
theorem mem_fixed (hDigits : 0 < digits) (x : Float) : ∀ c ∈ fixed digits x, 45 ≤ c.toNat ∧ c.toNat ≤ 110 := by
  have hSize : ∀ c ∈ size digits x, 45 ≤ c.toNat ∧ c.toNat ≤ 110 := by
    rcases size_eq digits x with h | h | h
    · simp [h]
    · simp [h]
    · rw [h]
      intro c hc
      rcases plain_fixed hDigits _ c hc with hDigit | rfl | rfl
      · simp only [Char.isDigit, Bool.and_eq_true, decide_eq_true_eq] at hDigit
        have hLow : 48 ≤ c.toNat := hDigit.1
        have hHigh : c.toNat ≤ 57 := hDigit.2
        omega
      · decide
      · decide
  unfold fixed
  split
  · exact List.forall_mem_cons.mpr ⟨by decide, hSize⟩
  · exact hSize

theorem word_fixed (hDigits : 0 < digits) (x : Float) : Word (fixed digits x) where
  nonempty := by
    have hSize : size digits x ≠ [] := by
      rcases size_eq digits x with h | h | h
      · rw [h]
        decide
      · rw [h]
        decide
      · obtain ⟨whole, fraction, hText, hNe, -⟩ := toList_fixed hDigits |toRat x|
        rw [h, hText]
        simp
    unfold fixed
    split
    · exact List.cons_ne_nil _ _
    · exact hSize
  plain c hc := by
    have hRange := mem_fixed hDigits x c hc
    simp only [isSpace, decide_eq_false_iff_not]
    omega

end Word

/-! ## Reading it back -/

/-- What is read where `x` has been printed. -/
structure ReadBack (digits : ℕ) (x y : Float) : Prop where
  nan : x.isNaN = true → y.isNaN = true
  infinite : x.isInf = true → y.isInf = true ∧ negative y = negative x
  finite : x.isFinite = true → y.isFinite = true ∧ toRat y = rounded 53 (-1074) (decimal digits (toRat x))

section Reading
open Float.Model RoundedFloat PythonFloat
variable {digits : ℕ} {x y : Float}

/-- The sign that is printed is that of the number. -/
theorem abs_toRat_of_sign (h : x.isFinite = true) : toRat x = if negative x then -|toRat x| else |toRat x| := by
  have hFinite : x.toModel.unpack.isFinite = true := h
  rw [toRat_eq]
  unfold negative
  cases hUnpack : x.toModel.unpack with
  | notANumber | infinity =>
    rw [hUnpack] at hFinite
    cases hFinite
  | zero sign => cases sign <;> simp [value]
  | finite sign mantissa exponent hPos =>
    cases sign with
    | positive =>
      dsimp only
      rw [if_neg (by simp), abs_of_pos value_pos]
    | negative =>
      dsimp only
      rw [if_pos rfl, abs_of_neg value_neg, neg_neg]

theorem abs_toRat_le (h : x.isFinite = true) : |toRat x| ≤ 2 ^ (1024 : ℤ) - 2 ^ (971 : ℤ) := by
  have hFinite : x.toModel.unpack.isFinite = true := h
  have hTop : (2 : ℚ) ^ (1024 : ℤ) - 2 ^ (971 : ℤ) = (2 ^ 53 - 1) * 2 ^ (971 : ℤ) := by
    rw [sub_mul, one_mul, ← zpow_natCast (2 : ℚ) 53, ← zpow_add₀ two_ne_zero]
    rfl
  rw [toRat_eq, hTop]
  cases hUnpack : x.toModel.unpack with
  | notANumber | infinity =>
    rw [hUnpack] at hFinite
    cases hFinite
  | zero sign =>
    change |(0 : ℚ)| ≤ _
    rw [abs_zero]
    positivity
  | finite sign mantissa exponent hPos =>
    have hFits : Fits mantissa exponent := fits_unpack _ hUnpack
    have hMantissa : (mantissa : ℚ) ≤ 2 ^ 53 - 1 := by
      have hLess : mantissa + 1 ≤ 2 ^ 53 := hFits.mantissa_lt
      have hCast : (mantissa : ℚ) + 1 ≤ 2 ^ 53 := by exact_mod_cast hLess
      linarith
    have hSign : |((sign.apply 1 : ℤ) : ℚ)| = 1 := by cases sign <;> decide
    rw [value_finite, abs_mul, hSign, one_mul, abs_of_nonneg (by positivity)]
    have hPower : (2 : ℚ) ^ exponent ≤ 2 ^ (971 : ℤ) := zpow_le_zpow_right₀ (by norm_num) hFits.most
    calc (mantissa : ℚ) * 2 ^ exponent
      _ ≤ mantissa * 2 ^ (971 : ℤ) := by gcongr
      _ ≤ (2 ^ 53 - 1) * 2 ^ (971 : ℤ) := by gcongr

/-- No printed number is too large to be read. -/
theorem magnitude_roundTo_lt (h : x.isFinite = true) (digits : ℕ) :
    magnitude 53 (-1074) (Decimal.roundTo digits |toRat x|) < 2 ^ (1024 : ℤ) := by
  rcases (roundTo_nonneg digits (abs_nonneg (toRat x))).eq_or_lt with hZero | hPos
  · rw [← hZero, magnitude_zero]
    positivity
  · rw [magnitude_lt_zpow_iff (by norm_num) (by norm_num) hPos]
    have hNear := (abs_le.mp (abs_roundTo_sub_le digits |toRat x|)).2
    have hStep : (1 / 2 : ℚ) / 10 ^ digits ≤ 1 / 2 := div_le_self (by norm_num) (one_le_pow₀ (by norm_num))
    have hLarge := abs_toRat_le h
    have hSplit : (2 : ℚ) ^ (971 : ℤ) = 2 ^ (970 : ℤ) + 2 ^ (970 : ℤ) := by
      rw [← mul_two, ← zpow_add_one₀ two_ne_zero]
      rfl
    have hHalf : (1 / 2 : ℚ) < 2 ^ (970 : ℤ) := by
      have hOne : (1 : ℚ) ≤ 2 ^ (970 : ℤ) := one_le_zpow₀ (by norm_num) (by norm_num)
      exact lt_of_lt_of_le (by norm_num) hOne
    rw [show (1024 : ℤ) - (53 : ℕ) - 1 = 970 from rfl]
    rw [hSplit] at hLarge
    generalize (2 : ℚ) ^ (970 : ℤ) = step at hLarge hHalf ⊢
    generalize (2 : ℚ) ^ (1024 : ℤ) = top at hLarge ⊢
    linarith

theorem unsigned_fixed (hDigits : 0 < digits) (hFew : digits ≤ 2048) (h : x.isFinite = true) :
    ∃ y, unsigned (Decimal.fixed digits |toRat x|).toList = some y ∧ y.isFinite = true ∧
      toRat y = magnitude 53 (-1074) (Decimal.roundTo digits |toRat x|) := by
  obtain ⟨whole, fraction, hText, hNe, hWhole, hFraction, hLength, hNumber⟩ := toList_fixed hDigits |toRat x|
  have hSmall := magnitude_roundTo_lt h digits
  have hNonneg : 0 ≤ Decimal.roundHalfEven (|toRat x| * 10 ^ digits) := by
    rw [roundHalfEven_eq]
    have hMono := nearest_mono (show (0 : ℚ) ≤ |toRat x| * 10 ^ digits by positivity)
    rwa [show nearest 0 = 0 from nearest_intCast 0] at hMono
  obtain ⟨n, hn⟩ := Int.eq_ofNat_of_zero_le hNonneg
  rw [Decimal.roundTo, hn, Int.cast_natCast] at hSmall ⊢
  rw [hText, unsigned_digits hNe hWhole hFraction, hLength, hNumber, hn, Int.toNat_natCast]
  refine ⟨_, rfl, ?_⟩
  rcases Nat.eq_zero_or_pos n with rfl | hPos
  · have hTop : |value (.zero .positive)| < 2 ^ (1024 : ℤ) := by
      change |(0 : ℚ)| < _
      rw [abs_zero]
      positivity
    rw [Nat.cast_zero, zero_div, magnitude_zero]
    exact ofModel_pack_spec rfl trivial hTop
  · exact ofScientific_spec hPos hDigits hFew hSmall

theorem signed_fixed (hDigits : 0 < digits) (q : ℚ) : signed (Decimal.fixed digits q).toList = (false, (Decimal.fixed digits q).toList) := by
  obtain ⟨whole, fraction, hText, hNe, hWhole, -⟩ := toList_fixed hDigits q
  obtain ⟨c, rest, rfl⟩ := List.exists_cons_of_ne_nil hNe
  have hDigit := hWhole c List.mem_cons_self
  rw [hText, List.cons_append, signed]
  · rintro _ hSame
    rw [(List.cons.inj hSame).1] at hDigit
    cases hDigit
  · rintro _ hSame
    rw [(List.cons.inj hSame).1] at hDigit
    cases hDigit

theorem isInf_of_isFinite (h : x.isFinite = true) : x.isInf = false := by
  have hFinite : x.toModel.unpack.isFinite = true := h
  change x.toModel.unpack.isInf = false
  cases hUnpack : x.toModel.unpack with
  | infinity sign =>
    rw [hUnpack] at hFinite
    cases hFinite
  | notANumber | zero | finite => rfl

theorem parse_fixed_of_isFinite (hDigits : 0 < digits) (hFew : digits ≤ 2048) (h : x.isFinite = true) :
    ∃ y, parse (fixed digits x) = some y ∧ y.isFinite = true ∧
      toRat y = rounded 53 (-1074) (decimal digits (toRat x)) := by
  obtain ⟨size, hSize, hFinite, hValue⟩ := unsigned_fixed hDigits hFew h
  have hText : PrintedFloat.size digits x = (Decimal.fixed digits |toRat x|).toList := by
    rw [PrintedFloat.size, isNaN_of_isFinite h, isInf_of_isFinite h]
    rfl
  have hNonneg := roundTo_nonneg digits (abs_nonneg (toRat x))
  have hPlain := plain_fixed hDigits |toRat x|
  rw [abs_toRat_of_sign h, fixed, hText]
  cases negative x with
  | false =>
    rw [if_neg (by simp), if_neg (by simp), parse_of_plain hPlain, signed_fixed hDigits, hSize]
    refine ⟨size, rfl, hFinite, ?_⟩
    rw [decimal_of_nonneg digits (abs_nonneg _), rounded, if_neg (not_lt.mpr hNonneg), hValue]
  | true =>
    have hMinus : ∀ c ∈ '-' :: (Decimal.fixed digits |toRat x|).toList, c.isDigit ∨ c = '.' ∨ c = '-' :=
      List.forall_mem_cons.mpr ⟨.inr (.inr rfl), hPlain⟩
    obtain ⟨hNegFinite, hNeg⟩ := neg_spec hFinite
    rw [if_pos rfl, if_pos rfl, parse_of_plain hMinus, signed, hSize]
    refine ⟨-size, rfl, hNegFinite, ?_⟩
    rw [decimal_neg, decimal_of_nonneg digits (abs_nonneg _), rounded_neg, rounded, if_neg (not_lt.mpr hNonneg), hNeg, hValue]

/-- Whatever is printed can be read. -/
theorem parse_fixed (hDigits : 0 < digits) (hFew : digits ≤ 2048) (x : Float) :
    ∃ y, parse (fixed digits x) = some y ∧ ReadBack digits x y := by
  cases hUnpack : x.toModel.unpack with
  | notANumber =>
    have hNan : x.isNaN = true := by
      change x.toModel.unpack.isNaN = true
      rw [hUnpack]
      rfl
    have hText : fixed digits x = "nan".toList := by
      rw [fixed, negative, hUnpack, size, hNan]
      rfl
    refine ⟨0 / 0, by rw [hText]; decide +kernel, fun _ => by decide +kernel, fun hInf => ?_, fun hFinite => ?_⟩
    · change x.toModel.unpack.isInf = true at hInf
      rw [hUnpack] at hInf
      cases hInf
    · rw [isNaN_of_isFinite hFinite] at hNan
      cases hNan
  | infinity sign =>
    have hNan : x.isNaN = false := by
      change x.toModel.unpack.isNaN = false
      rw [hUnpack]
      rfl
    have hInf : x.isInf = true := by
      change x.toModel.unpack.isInf = true
      rw [hUnpack]
      rfl
    have hFixed : fixed digits x = if negative x then "-inf".toList else "inf".toList := by
      rw [fixed, size, hNan, hInf]
      rfl
    have hRead (y : Float) (hParse : parse (fixed digits x) = some y) (hSame : y.isInf = true ∧ negative y = negative x) :
        ∃ y, parse (fixed digits x) = some y ∧ ReadBack digits x y := by
      refine ⟨y, hParse, fun h => ?_, fun _ => hSame, fun h => ?_⟩
      · rw [hNan] at h
        cases h
      · rw [isInf_of_isFinite h] at hInf
        cases hInf
    cases sign with
    | positive =>
      have hSign : negative x = false := by rw [negative, hUnpack]
      rw [hSign] at hFixed
      exact hRead (1 / 0) (by rw [hFixed]; decide +kernel) (by rw [hSign]; decide +kernel)
    | negative =>
      have hSign : negative x = true := by rw [negative, hUnpack]
      rw [hSign] at hFixed
      exact hRead (-(1 / 0)) (by rw [hFixed]; decide +kernel) (by rw [hSign]; decide +kernel)
  | zero | finite =>
    have hFinite : x.isFinite = true := by
      change x.toModel.unpack.isFinite = true
      rw [hUnpack]
      rfl
    obtain ⟨y, hParse, hRead⟩ := parse_fixed_of_isFinite hDigits hFew hFinite
    refine ⟨y, hParse, fun h => ?_, fun h => ?_, fun _ => hRead⟩
    · rw [isNaN_of_isFinite hFinite] at h
      cases h
    · rw [isInf_of_isFinite hFinite] at h
      cases h

/-- A number is off by one unit of the last printed digit at most. -/
theorem ReadBack.near (h : ReadBack digits x y) (hFinite : x.isFinite = true) : |toRat y - toRat x| ≤ 1 / 10 ^ digits := by
  have hPrinted := abs_decimal_sub_le digits (toRat x)
  have hRead := abs_rounded_sub_le_abs (decimal digits (toRat x)) x hFinite
  rw [(h.finite hFinite).2]
  rw [abs_sub_comm (toRat x)] at hRead
  have hTriangle := abs_sub_le (rounded 53 (-1074) (decimal digits (toRat x))) (decimal digits (toRat x)) (toRat x)
  have hHalves : (1 / 2 : ℚ) / 10 ^ digits + 1 / 2 / 10 ^ digits = 1 / 10 ^ digits := by ring
  linarith

/-- The order of what is printed is kept. -/
theorem ReadBack.toRat_mono {x' y' : Float} (h : ReadBack digits x y) (h' : ReadBack digits x' y') (hFinite : x.isFinite = true)
    (hFinite' : x'.isFinite = true) (hOrder : toRat x ≤ toRat x') : toRat y ≤ toRat y' := by
  rw [(h.finite hFinite).2, (h'.finite hFinite').2]
  exact rounded_mono (-1074) (by norm_num) (decimal_mono digits hOrder)

theorem ReadBack.isFinite_iff (h : ReadBack digits x y) : y.isFinite = true ↔ x.isFinite = true := by
  constructor
  · intro hFinite
    rcases isNaN_or_isInf_or_isFinite x with hNan | hInf | hNumber
    · have hRead := h.nan hNan
      rw [isNaN_of_isFinite hFinite] at hRead
      cases hRead
    · have hRead := (h.infinite hInf).1
      rw [isInf_of_isFinite hFinite] at hRead
      cases hRead
    · exact hNumber
  · exact fun hFinite => (h.finite hFinite).1

/-- Zero is read where zero is printed. -/
theorem ReadBack.zero_iff (h : ReadBack digits x y) (hDigits : 2 ^ (-1074 : ℤ) ≤ (1 / 10 ^ digits : ℚ)) :
    Zero y ↔ x.isFinite = true ∧ |toRat x| ≤ 1 / 2 / 10 ^ digits := by
  have hNumber (hFinite : x.isFinite = true) : Zero y ↔ |toRat x| ≤ 1 / 2 / 10 ^ digits := by
    obtain ⟨hRead, hValue⟩ := h.finite hFinite
    rw [zero_iff_toRat hRead, hValue, ← decimal_eq_zero_iff]
    constructor
    · intro hZero
      by_contra hNone
      have hLeast := le_abs_rounded le_rfl (hDigits.trans (le_abs_decimal digits (toRat x) hNone))
      rw [hZero, abs_zero] at hLeast
      exact absurd hLeast (not_le.mpr (by positivity))
    · intro hZero
      rw [hZero, rounded, if_neg (lt_irrefl 0), magnitude_zero]
  constructor
  · intro hZero
    have hFinite := h.isFinite_iff.mp hZero.isFinite
    exact ⟨hFinite, (hNumber hFinite).mp hZero⟩
  · rintro ⟨hFinite, hSmall⟩
    exact (hNumber hFinite).mpr hSmall

/-- What is read is zero or has a digit that has been printed. -/
theorem ReadBack.le_abs (h : ReadBack digits x y) {k : ℤ} (hPlace : -1074 ≤ k) (hDigits : 2 ^ k ≤ (1 / 10 ^ digits : ℚ))
    (hNe : toRat y ≠ 0) : 2 ^ k ≤ |toRat y| := by
  have hValue := (h.finite (h.isFinite_iff.mp (isFinite_of_toRat hNe))).2
  rw [hValue] at hNe ⊢
  have hPrinted : decimal digits (toRat x) ≠ 0 := by
    intro hZero
    rw [hZero, rounded, if_neg (lt_irrefl 0), magnitude_zero] at hNe
    exact hNe rfl
  exact le_abs_rounded hPlace (hDigits.trans (le_abs_decimal digits (toRat x) hPrinted))

end Reading

end PrintedFloat
