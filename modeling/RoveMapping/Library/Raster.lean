import Mathlib.Data.Int.Order.Basic
import Mathlib.Order.MinMax

/-! # Two-dimensional arrays and their slices

A slice of an axis follows Python: a negative bound counts from the end, and bounds outside the axis
are moved to its ends. A slice assignment takes an array of the same shape, or one that is stretched
along an axis of length one.
-/
namespace Slicing
set_option autoImplicit false

structure Raster (α : Type) where
  height : ℕ
  width : ℕ
  cell : Fin height → Fin width → α

/-- The positions of an axis that a slice selects. -/
structure Span where
  start : ℕ
  length : ℕ
deriving DecidableEq, Repr

def bound (n : ℕ) (i : ℤ) : ℕ := (min (max 0 (if i < 0 then i + n else i)) n).toNat

def span (n : ℕ) (start stop : ℤ) : Span := ⟨bound n start, bound n stop - bound n start⟩

theorem bound_le (n : ℕ) (i : ℤ) : bound n i ≤ n := by
  unfold bound
  omega

theorem bound_of_mem {n : ℕ} {i : ℤ} (hLower : 0 ≤ i) (hUpper : i ≤ n) : bound n i = i.toNat := by
  rw [bound, if_neg (not_lt.mpr hLower), max_eq_right hLower, min_eq_left hUpper]

theorem span_lt {n : ℕ} {start stop : ℤ} (k : Fin (span n start stop).length) :
    (span n start stop).start + k < n := by
  have hStop := bound_le n stop
  have hLength := k.2
  simp only [span] at hLength ⊢
  omega

def Span.Covers (s : Span) (i : ℕ) : Prop := s.start ≤ i ∧ i < s.start + s.length

instance (s : Span) (i : ℕ) : Decidable (s.Covers i) := inferInstanceAs (Decidable (_ ∧ _))

/-- The position along the assigned axis that is shown at position `i`. -/
def Span.source (s : Span) (length i : ℕ) : ℕ := if length = 1 then 0 else i - s.start

theorem source_of_length {s : Span} {length i : ℕ} (hLength : length = s.length) (hCovers : s.Covers i) :
    s.source length i = i - s.start ∧ i - s.start < length := by
  simp only [Span.source, Span.Covers] at hCovers ⊢
  constructor
  · split <;> omega
  · omega

variable {α : Type}

namespace Raster

def full (height width : ℕ) (value : α) : Raster α := ⟨height, width, fun _ _ => value⟩

def get? (a : Raster α) (i j : ℕ) : Option α :=
  if h : i < a.height ∧ j < a.width then some (a.cell ⟨i, h.1⟩ ⟨j, h.2⟩) else none

/-- `a[r0:r1, c0:c1]` -/
def slice (a : Raster α) (r0 r1 c0 c1 : ℤ) : Raster α where
  height := (span a.height r0 r1).length
  width := (span a.width c0 c1).length
  cell i j := a.cell ⟨(span a.height r0 r1).start + i, span_lt i⟩ ⟨(span a.width c0 c1).start + j, span_lt j⟩

/-- `a[r0:r1, c0:c1] = b`, which refuses a `b` of another shape. -/
def assign (a : Raster α) (r0 r1 c0 c1 : ℤ) (b : Raster α) : Option (Raster α) :=
  let rows := span a.height r0 r1
  let cols := span a.width c0 c1
  if (b.height = rows.length ∨ b.height = 1) ∧ (b.width = cols.length ∨ b.width = 1) then
    some { a with
      cell := fun i j =>
        if rows.Covers i ∧ cols.Covers j then
          (b.get? (rows.source b.height i) (cols.source b.width j)).getD (a.cell i j)
        else a.cell i j }
  else none

theorem get?_eq_some {a : Raster α} {i j : ℕ} (hi : i < a.height) (hj : j < a.width) :
    a.get? i j = some (a.cell ⟨i, hi⟩ ⟨j, hj⟩) := dif_pos ⟨hi, hj⟩

theorem get?_eq_none {a : Raster α} {i j : ℕ} (h : ¬ (i < a.height ∧ j < a.width)) : a.get? i j = none := dif_neg h

theorem get?_full {height width : ℕ} {value : α} {i j : ℕ} (hi : i < height) (hj : j < width) :
    (full height width value).get? i j = some value := get?_eq_some (a := full height width value) hi hj

theorem get?_slice {a : Raster α} {r0 r1 c0 c1 : ℤ} {i j : ℕ} (hi : i < (span a.height r0 r1).length)
    (hj : j < (span a.width c0 c1).length) :
    (a.slice r0 r1 c0 c1).get? i j = a.get? ((span a.height r0 r1).start + i) ((span a.width c0 c1).start + j) := by
  have hRow : (span a.height r0 r1).start + i < a.height := span_lt ⟨i, hi⟩
  have hColumn : (span a.width c0 c1).start + j < a.width := span_lt ⟨j, hj⟩
  rw [get?_eq_some (a := a.slice r0 r1 c0 c1) hi hj, get?_eq_some hRow hColumn]
  rfl

/-- An array of the shape of the slice is taken over as it is, and nothing else changes. -/
theorem assign_of_shape {a b : Raster α} {r0 r1 c0 c1 : ℤ} (hHeight : b.height = (span a.height r0 r1).length)
    (hWidth : b.width = (span a.width c0 c1).length) :
    ∃ c, a.assign r0 r1 c0 c1 b = some c ∧ c.height = a.height ∧ c.width = a.width ∧
      ∀ i j, i < a.height → j < a.width → c.get? i j =
        if (span a.height r0 r1).Covers i ∧ (span a.width c0 c1).Covers j then
          b.get? (i - (span a.height r0 r1).start) (j - (span a.width c0 c1).start)
        else a.get? i j := by
  refine ⟨_, if_pos ⟨.inl hHeight, .inl hWidth⟩, rfl, rfl, ?_⟩
  intro i j hi hj
  rw [get?_eq_some (by exact hi) (by exact hj), get?_eq_some hi hj]
  dsimp only
  split
  · rename_i hCovers
    obtain ⟨hSourceRow, hRow⟩ := source_of_length hHeight hCovers.1
    obtain ⟨hSourceColumn, hColumn⟩ := source_of_length hWidth hCovers.2
    rw [hSourceRow, hSourceColumn, get?_eq_some hRow hColumn]
    rfl
  · rfl

end Raster

end Slicing
