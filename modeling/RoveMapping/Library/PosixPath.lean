import Mathlib.Data.List.Basic

/-! # Paths and the places they lead to

A path keeps its parts as they are written, `..` among them; which place it names is found by walking
through them. There are no links.
-/
namespace PosixPath
set_option autoImplicit false

/-- A place of the file system: the names from there up to `/`. -/
abbrev Place : Type := List String

/-- Where a name leads. -/
def enter (place : Place) (name : String) : Place :=
  if name = "" ∨ name = "." then place else if name = ".." then place.tail else name :: place

/-- The places on the way through the names. -/
def steps : Place → List String → List Place
  | _, [] => []
  | place, name :: rest => enter place name :: steps (enter place name) rest

/-- What a path begins with, where that is, and its parts. -/
structure Path where
  anchor : String
  start : Place
  parts : List String
  deriving DecidableEq

namespace Path

/-- `self / name`, for a name without a slash. -/
def child (path : Path) (name : String) : Path :=
  if name = "" ∨ name = "." then path else { path with parts := path.parts ++ [name] }

/-- `self / text`; an absolute text begins anew. -/
def join (path : Path) (text : String) : Path :=
  let first : Path := if text.toList.head? = some '/' then ⟨"/", [], []⟩ else path
  (text.toList.splitOn '/').foldl (fun path part => path.child (String.ofList part)) first

def place (path : Path) : Place := path.parts.foldl enter path.start

def trail (path : Path) : List Place := path.start :: steps path.start path.parts

/-- `str(self)` -/
def str (path : Path) : String :=
  if path.anchor = "" ∧ path.parts = [] then "." else path.anchor ++ "/".intercalate path.parts

example : (((⟨"/", [], ["data"]⟩ : Path).join "a/.././b/").str, ((⟨"/", [], ["data"]⟩ : Path).join "a/.././b/").place) =
    ("/data/a/../b", ["b", "data"]) := by decide +kernel

end Path

section Walk

variable {place : Place} {name name' : String}

theorem place_child (path : Path) (name : String) : (path.child name).place = enter path.place name := by
  unfold Path.child
  split
  · rename_i hHere
    rw [enter, if_pos hHere]
  · rw [Path.place, List.foldl_append]
    rfl

/-- The names that lead nowhere else. -/
def Here (name : String) : Prop := name = "" ∨ name = "."

theorem enter_here (h : Here name) : enter place name = place := if_pos h

theorem enter_up : enter place ".." = place.tail := by
  rw [enter, if_neg (by decide), if_pos rfl]

theorem enter_down (hHere : ¬Here name) (hUp : name ≠ "..") : enter place name = name :: place :=
  (if_neg hHere).trans (if_neg hUp)

theorem not_here_up : ¬Here ".." := by
  rintro (h | h) <;> exact absurd h (by decide)

theorem tail_ne_cons (place : Place) (name : String) : place.tail ≠ name :: place := by
  intro h
  have hLength := congrArg List.length h
  rw [List.length_tail, List.length_cons] at hLength
  omega

/-- Two names lead to one place where neither leads away, or where `/` is its own parent. -/
theorem enter_eq_iff (hNe : name ≠ name') : enter place name = enter place name' ↔
    Here name ∧ Here name' ∨ place = [] ∧ (Here name ∧ name' = ".." ∨ name = ".." ∧ Here name') := by
  by_cases hHere : Here name
  · rw [enter_here hHere]
    by_cases hHere' : Here name'
    · simp [enter_here hHere', hHere, hHere']
    by_cases hUp' : name' = ".."
    · subst hUp'
      rw [enter_up, eq_comm]
      cases place <;> simp [hHere, not_here_up]
    · rw [enter_down hHere' hUp']
      simp [hHere', hUp']
  by_cases hUp : name = ".."
  · subst hUp
    rw [enter_up]
    by_cases hHere' : Here name'
    · rw [enter_here hHere']
      cases place <;> simp [hHere', not_here_up]
    · rw [enter_down hHere' hNe.symm]
      simp [tail_ne_cons, hHere', not_here_up]
  rw [enter_down hHere hUp]
  by_cases hHere' : Here name'
  · rw [enter_here hHere']
    simp [hHere, hUp]
  by_cases hUp' : name' = ".."
  · subst hUp'
    rw [enter_up, eq_comm]
    simp [tail_ne_cons, hHere, not_here_up]
  · rw [enter_down hHere' hUp']
    simp [hHere, hHere', hUp, hUp', hNe]

end Walk
end PosixPath
