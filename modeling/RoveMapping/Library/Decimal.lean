import Mathlib.Algebra.Order.Floor.Ring
import Mathlib.Data.Rat.Floor

/-! # Rounding and printing decimals -/
namespace Decimal
set_option autoImplicit false

/-- The nearest integer; a tie goes to the even one. -/
def roundHalfEven (x : ℚ) : ℤ :=
  let low := ⌊x⌋
  let rest := x - low
  if rest < 1 / 2 then low else if 1 / 2 < rest then low + 1 else if low % 2 = 0 then low else low + 1

def roundTo (digits : ℕ) (x : ℚ) : ℚ := roundHalfEven (x * 10 ^ digits) / 10 ^ digits

def zeroPad (width n : ℕ) : String :=
  let shown := toString n
  String.ofList (List.replicate (width - shown.length) '0') ++ shown

/-- `f'{x:.<digits>f}'` of a number that is not negative. -/
def fixed (digits : ℕ) (x : ℚ) : String :=
  let n := (roundHalfEven (x * 10 ^ digits)).toNat
  s!"{n / 10 ^ digits}." ++ zeroPad digits (n % 10 ^ digits)

end Decimal
