import Mathlib.Data.List.FinRange
import Mathlib.Data.List.Zip

/-! # Boolean masks

What masks leave of an array has an index of its own. `select` and `flatnonzero` read an array through a mask,
`compress` reads what a first mask left through a second, and `scatter` writes back to the first index.
-/
namespace Masks
set_option autoImplicit false

variable {α β : Type} {n : ℕ}

def flatnonzero (mask : Fin n → Bool) : List (Fin n) := (List.finRange n).filter mask

theorem mem_flatnonzero {mask : Fin n → Bool} {i : Fin n} : i ∈ flatnonzero mask ↔ mask i = true := by
  simp [flatnonzero]

/-- `xs[mask]` -/
def select (mask : Fin n → Bool) (xs : Fin n → α) : List α := (flatnonzero mask).map xs

/-- `xs[mask]` of arrays that a mask has already shortened; arrays of two lengths cannot be used together. -/
def compress (mask : List Bool) (xs : List α) : Option (List α) :=
  if mask.length = xs.length then some ((xs.zip mask).filterMap fun entry => if entry.2 then some entry.1 else none)
  else none

theorem compress_map (p : β → Bool) (f : β → α) (index : List β) :
    compress (index.map p) (index.map f) = some ((index.filter p).map f) := by
  rw [compress, if_pos (by simp)]
  congr 1
  induction index with
  | nil => rfl
  | cons i index ih => cases hp : p i <;> simp [hp, ih]

theorem compress_map_self (p : β → Bool) (index : List β) : compress (index.map p) index = some (index.filter p) := by
  simpa using compress_map p id index

def store (xs : Fin n → α) (i : Fin n) (x : α) : Fin n → α := fun j => if j = i then x else xs j

/-- `base[index] = values`, from left to right. -/
def scatter (base : Fin n → α) (index : List (Fin n)) (values : List α) : Option (Fin n → α) :=
  if index.length = values.length then some ((index.zip values).foldl (fun xs entry => store xs entry.1 entry.2) base)
  else none

theorem scatter_map (base : Fin n → α) (f : Fin n → α) (index : List (Fin n)) :
    scatter base index (index.map f) = some fun i => if i ∈ index then f i else base i := by
  rw [scatter, if_pos (by simp)]
  congr 1
  induction index generalizing base with
  | nil => simp
  | cons j index ih =>
      rw [List.map_cons, List.zip_cons_cons, List.foldl_cons, ih]
      funext i
      by_cases hMem : i ∈ index
      · simp [hMem]
      · by_cases hEq : i = j <;> simp [store, hMem, hEq]

end Masks
