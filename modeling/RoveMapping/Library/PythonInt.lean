import RoveMapping.Library.Decimal

/-! # Integers as Python reads them

`int(text)` in base ten, for the decimal digits of ASCII: blanks around, a sign, and single
underscores between the digits.
-/
namespace PythonInt
set_option autoImplicit false

/-- The blanks that `int` skips: of the control characters fewer than `str.isspace` accepts. -/
def isSpace (c : Char) : Bool :=
  let n := c.toNat
  (9 ≤ n ∧ n ≤ 13) ∨ n = 32 ∨ n = 0x85 ∨ n = 0xa0 ∨ n = 0x1680 ∨ (0x2000 ≤ n ∧ n ≤ 0x200a) ∨
    n = 0x2028 ∨ n = 0x2029 ∨ n = 0x202f ∨ n = 0x205f ∨ n = 0x3000

def strip (text : List Char) : List Char := ((text.dropWhile isSpace).reverse.dropWhile isSpace).reverse

def digits (text : List Char) : Option ℕ :=
  let groups := text.splitOn '_'
  if ∀ group ∈ groups, group ≠ [] ∧ group.all Char.isDigit then some (Nat.ofDigitChars 10 groups.flatten 0) else none

def parse (text : List Char) : Option ℤ :=
  match strip text with
  | '-' :: rest => (digits rest).map fun n => -n
  | '+' :: rest => (digits rest).map fun n => n
  | rest => (digits rest).map fun n => n

theorem not_isSpace_of_isDigit {c : Char} (h : c.isDigit) : isSpace c = false := by
  simp only [Char.isDigit, Bool.and_eq_true, decide_eq_true_eq] at h
  have hLow : 48 ≤ c.toNat := h.1
  have hHigh : c.toNat ≤ 57 := h.2
  simp only [isSpace, decide_eq_false_iff_not]
  omega

theorem dropWhile_of_digits {text : List Char} (h : ∀ c ∈ text, c.isDigit) : text.dropWhile isSpace = text := by
  cases text with
  | nil => rfl
  | cons c rest =>
    rw [List.dropWhile_cons, not_isSpace_of_isDigit (h c List.mem_cons_self)]
    rfl

theorem strip_of_digits {text : List Char} (h : ∀ c ∈ text, c.isDigit) : strip text = text := by
  rw [strip, dropWhile_of_digits h, dropWhile_of_digits fun c hc => h c (List.mem_reverse.mp hc), List.reverse_reverse]

theorem parse_of_digits {text : List Char} (hNe : text ≠ []) (h : ∀ c ∈ text, c.isDigit) :
    parse text = some (Nat.ofDigitChars 10 text 0 : ℕ) := by
  have hUnderscore : '_' ∉ text := fun hMem => absurd (h _ hMem) (by decide)
  have hGroups : text.splitOn '_' = [text] := List.splitOnP_eq_singleton fun c hc => beq_false_of_ne fun hEq => hUnderscore (hEq ▸ hc)
  have hDigits : digits text = some (Nat.ofDigitChars 10 text 0) := by
    have hAll : ∀ group ∈ [text], group ≠ [] ∧ group.all Char.isDigit := by
      simpa [hNe] using h
    simp only [digits, hGroups, if_pos hAll, List.flatten_cons, List.flatten_nil, List.append_nil]
  cases text with
  | nil => exact absurd rfl hNe
  | cons c rest =>
    have hc := h c List.mem_cons_self
    rw [parse, strip_of_digits h]
    split
    · exact absurd hc (by simp_all [Char.isDigit])
    · exact absurd hc (by simp_all [Char.isDigit])
    · rw [hDigits]
      rfl

/-- A number is read back from its decimal digits, however they are padded. -/
theorem parse_zeroPad (width n : ℕ) : parse (Decimal.zeroPad width n).toList = some (n : ℤ) := by
  have hChars : (Decimal.zeroPad width n).toList =
      List.replicate (width - (toString n).length) '0' ++ Nat.toDigits 10 n := by
    simp [Decimal.zeroPad]
  rw [hChars, parse_of_digits]
  · simp [Nat.ofDigitChars_append]
  · simp [Nat.toDigits_ne_nil]
  · intro c hc
    rcases List.mem_append.mp hc with hZero | hDigit
    · rw [List.eq_of_mem_replicate hZero]
      decide
    · exact Nat.isDigit_of_mem_toDigits (by decide) (by decide) hDigit

end PythonInt
