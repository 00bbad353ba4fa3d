import Mathlib.Data.Nat.Digits.Defs

/-! # Numbers as Python reads them

`float(text)` for a text without blanks: decimal digits of any script, single underscores between digits,
and the names of the infinities and of NaN.
-/
namespace PythonFloat
set_option autoImplicit false

/-- The zeros of the scripts that write decimal numbers (Unicode 13.0); the other nine digits follow each. -/
def zeros : List ℕ :=
  [0x30, 0x660, 0x6f0, 0x7c0, 0x966, 0x9e6, 0xa66, 0xae6, 0xb66, 0xbe6, 0xc66, 0xce6, 0xd66, 0xde6, 0xe50, 0xed0, 0xf20,
    0x1040, 0x1090, 0x17e0, 0x1810, 0x1946, 0x19d0, 0x1a80, 0x1a90, 0x1b50, 0x1bb0, 0x1c40, 0x1c50, 0xa620, 0xa8d0, 0xa900,
    0xa9d0, 0xa9f0, 0xaa50, 0xabf0, 0xff10, 0x104a0, 0x10d30, 0x11066, 0x110f0, 0x11136, 0x111d0, 0x112f0, 0x11450, 0x114d0,
    0x11650, 0x116c0, 0x11730, 0x118e0, 0x11950, 0x11c50, 0x11d50, 0x11da0, 0x16a60, 0x16b50, 0x1d7ce, 0x1d7d8, 0x1d7e2,
    0x1d7ec, 0x1d7f6, 0x1e140, 0x1e2f0, 0x1e950, 0x1fbf0]

/-- Decimal digits of other scripts become those of ASCII. -/
def toAscii (c : Char) : Char :=
  match zeros.find? fun first => first ≤ c.toNat ∧ c.toNat < first + 10 with
  | some first => Char.ofNat (48 + (c.toNat - first))
  | none => c

/-- The text without its underscores, each of which stands between two digits. -/
def dropUnderscores (previous : Char) : List Char → Option (List Char)
  | [] => if previous = '_' then none else some []
  | c :: rest =>
    if c = '_' then if previous.isDigit then dropUnderscores c rest else none
    else if previous = '_' ∧ ¬c.isDigit then none
    else (dropUnderscores c rest).map (c :: ·)

def signed : List Char → Bool × List Char
  | '-' :: rest => (true, rest)
  | '+' :: rest => (false, rest)
  | rest => (false, rest)

def decimalExponent : List Char → Option ℤ
  | [] => some 0
  | c :: rest =>
    let (negative, digits) := signed rest
    if (c = 'e' ∨ c = 'E') ∧ digits ≠ [] ∧ digits.all Char.isDigit then
      let size : ℤ := Nat.ofDigitChars 10 digits 0
      some (if negative then -size else size)
    else none

/-- The nearest `Float` to a decimal number; infinite where it is too large. -/
def decimal (text : List Char) : Option Float :=
  let whole := text.takeWhile Char.isDigit
  let afterWhole := text.dropWhile Char.isDigit
  let (fraction, rest) := match afterWhole with
    | '.' :: afterPoint => (afterPoint.takeWhile Char.isDigit, afterPoint.dropWhile Char.isDigit)
    | _ => ([], afterWhole)
  if whole ++ fraction = [] then none
  else (decimalExponent rest).map fun exponent =>
    .ofModel (.ofScientific (Nat.ofDigitChars 10 (whole ++ fraction) 0) (exponent - fraction.length))

def unsigned (text : List Char) : Option Float :=
  let name := text.map Char.toLower
  if name = "inf".toList ∨ name = "infinity".toList then some (1 / 0)
  else if name = "nan".toList then some (0 / 0)
  else decimal text

def parse (text : List Char) : Option Float := do
  let (negative, rest) := signed (← dropUnderscores '\x00' (text.map toAscii))
  let size ← unsigned rest
  return if negative then -size else size

example : (["-1_000.25e-2", "+.5", "٣.", "-0"].map fun text => parse text.toList) =
    [some (-10.0025), some 0.5, some 3, some (-0)] := by decide +kernel

example : (["1__0", "_1", "1.e", ".", "infin", "0x10", "1e5_"].map fun text => parse text.toList) =
    [none, none, none, none, none, none, none] := by decide +kernel

end PythonFloat
