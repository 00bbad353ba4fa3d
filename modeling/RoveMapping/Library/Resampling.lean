import Mathlib.Algebra.Group.Hom.Defs
import Mathlib.Algebra.Group.Basic

/-! # Directions through maps of pictures

A transform of pictures is given by the point of the old picture that each point of the new one is
read from. `Carries` follows a direction through such a map.
-/
namespace Resampling
set_option autoImplicit false

variable {P Q R : Type}

section Directions

variable [AddGroup P] [AddGroup Q] [AddGroup R]

/-- Moving by `v` in the new picture moves by `d` in the old one. -/
def Carries (source : P → Q) (v : P) (d : Q) : Prop := ∀ o, source (o + v) = source o + d

theorem Carries.comp {source : P → Q} {source' : Q → R} {v : P} {d : Q} {e : R} (h : Carries source v d)
    (h' : Carries source' d e) : Carries (fun o => source' (source o)) v e :=
  fun o => (congrArg source' (h o)).trans (h' (source o))

theorem Carries.unique {source : P → Q} {v : P} {d d' : Q} (h : Carries source v d) (h' : Carries source v d') : d = d' :=
  add_left_cancel ((h 0).symm.trans (h' 0))

end Directions

/-- About a centre, an additive map carries each direction to its image. -/
theorem carries_about [AddCommGroup P] (linear : P →+ P) (centre v : P) :
    Carries (fun o => linear (o - centre) + centre) v (linear v) := by
  intro o
  calc linear (o + v - centre) + centre
      = linear (o - centre) + linear v + centre := by rw [add_sub_right_comm, map_add]
    _ = linear (o - centre) + centre + linear v := add_right_comm _ _ _

end Resampling
