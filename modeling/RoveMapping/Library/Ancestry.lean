import Mathlib.Data.Nat.Find
import Mathlib.Logic.Relation

/-! # Climbing a partial parent map

Each element has at most one parent, and the link to it has a label. The map need not be a forest: a climb
may run in a circle, or stop at an element without parent.
-/
namespace Ancestry
set_option autoImplicit false

variable {α M : Type} (up : α → Option (α × M))

/-- `n` links up from `a`: the element there, and the labels on the way, the uppermost first. -/
def climb : ℕ → α → Option (α × List M)
  | 0, a => some (a, [])
  | n + 1, a => (climb n a).bind fun here => (up here.1).map fun next => (next.1, next.2 :: here.2)

def ancestor (n : ℕ) (a : α) : Option α := (climb up n a).map Prod.fst

/-- The first arrival at `root`, after `n` links. -/
structure Reaches (a root : α) (n : ℕ) (labels : List M) : Prop where
  arrives : climb up n a = some (root, labels)
  first : ∀ k < n, ancestor up k a ≠ some root

/-- The climb comes to `b`, which has no parent, without having met `root`. -/
def Stuck (a root b : α) : Prop := ∃ n, ancestor up n a = some b ∧ up b = none ∧ ∀ k ≤ n, ancestor up k a ≠ some root

/-- The climb comes to `b` twice without having met `root`. -/
def Circles (a root b : α) : Prop :=
  ∃ i j, i < j ∧ ancestor up i a = some b ∧ ancestor up j a = some b ∧ ∀ k ≤ j, ancestor up k a ≠ some root

def Parent (a b : α) : Prop := ∃ label, up a = some (b, label)

variable {up}

theorem climb_add (m n : ℕ) (a : α) : climb up (m + n) a =
    (climb up m a).bind fun here => (climb up n here.1).map fun there => (there.1, there.2 ++ here.2) := by
  induction n with
  | zero => cases climb up m a <;> rfl
  | succ n ih =>
    rw [← Nat.add_assoc, climb, ih]
    cases climb up m a with
    | none => rfl
    | some here =>
      simp only [Option.bind_some, climb]
      cases climb up n here.1 with
      | none => rfl
      | some there =>
        simp only [Option.map_some, Option.bind_some]
        cases up there.1 <;> rfl

theorem ancestor_succ (n : ℕ) (a : α) : ancestor up (n + 1) a = (ancestor up n a).bind fun b => (up b).map Prod.fst := by
  rw [ancestor, ancestor, climb]
  cases climb up n a with
  | none => rfl
  | some here =>
    simp only [Option.bind_some, Option.map_some]
    cases up here.1 <;> rfl

theorem ancestor_add (m n : ℕ) (a : α) : ancestor up (m + n) a = (ancestor up m a).bind (ancestor up n) := by
  induction n with
  | zero => cases ancestor up m a <;> rfl
  | succ n ih =>
    rw [← Nat.add_assoc, ancestor_succ, ih]
    cases ancestor up m a with
    | none => rfl
    | some b => rw [Option.bind_some, Option.bind_some, ancestor_succ]

theorem ancestor_above {n : ℕ} {a b : α} (hAt : ancestor up n a = some b) (hTop : up b = none) :
    ancestor up (n + 1) a = none := by
  rw [ancestor_succ, hAt, Option.bind_some, hTop, Option.map_none]

theorem ancestor_none_of_le {n k : ℕ} {a : α} (h : ancestor up n a = none) (hk : n ≤ k) : ancestor up k a = none := by
  obtain ⟨d, rfl⟩ := Nat.exists_eq_add_of_le hk
  rw [ancestor_add, h, Option.bind_none]

theorem ancestor_eq_some_iff {n : ℕ} {a b : α} : ancestor up n a = some b ↔ ∃ labels, climb up n a = some (b, labels) := by
  constructor
  · intro h
    obtain ⟨⟨c, labels⟩, hClimb, hFirst⟩ := Option.map_eq_some_iff.mp h
    cases hFirst
    exact ⟨labels, hClimb⟩
  · rintro ⟨labels, h⟩
    rw [ancestor, h, Option.map_some]

/-! ## The ends of a climb -/

section Ends
variable {a root : α}

/-- A climb in a circle sees nothing that it has not seen before it closes. -/
theorem ancestor_of_repeat {i j : ℕ} {b : α} (hij : i < j) (hi : ancestor up i a = some b)
    (hj : ancestor up j a = some b) (k : ℕ) : ∃ k' ≤ j, ancestor up k a = ancestor up k' a := by
  induction k using Nat.strong_induction_on with
  | h k ih =>
    by_cases hk : k ≤ j
    · exact ⟨k, hk, rfl⟩
    · obtain ⟨d, rfl⟩ := Nat.exists_eq_add_of_le (Nat.le_of_not_le hk)
      obtain ⟨k', hLe, hSame⟩ := ih (i + d) (by omega)
      refine ⟨k', hLe, ?_⟩
      rw [← hSame, ancestor_add, ancestor_add, hi, hj]

theorem Reaches.ancestor_eq {n : ℕ} {labels : List M} (h : Reaches up a root n labels) : ancestor up n a = some root :=
  ancestor_eq_some_iff.mpr ⟨labels, h.arrives⟩

theorem Reaches.not_stuck {n : ℕ} {labels : List M} (h : Reaches up a root n labels) (b : α) : ¬Stuck up a root b := by
  rintro ⟨m, hAt, hTop, hBefore⟩
  have hAbove := ancestor_above hAt hTop
  by_cases hn : n ≤ m
  · exact hBefore n hn h.ancestor_eq
  · have hNone := ancestor_none_of_le hAbove (by omega : m + 1 ≤ n)
    rw [h.ancestor_eq] at hNone
    cases hNone

theorem Reaches.not_circles {n : ℕ} {labels : List M} (h : Reaches up a root n labels) (b : α) :
    ¬Circles up a root b := by
  rintro ⟨i, j, hij, hi, hj, hBefore⟩
  obtain ⟨k, hk, hSame⟩ := ancestor_of_repeat hij hi hj n
  exact hBefore k hk (hSame.symm.trans h.ancestor_eq)

theorem Stuck.not_circles {b : α} (h : Stuck up a root b) (c : α) : ¬Circles up a root c := by
  obtain ⟨m, hAt, hTop, -⟩ := h
  rintro ⟨i, j, hij, hi, hj, -⟩
  have hAbove := ancestor_above hAt hTop
  obtain ⟨k, hk, hSame⟩ := ancestor_of_repeat hij hi hj (m + 1)
  have hNone := ancestor_none_of_le (hSame.symm.trans hAbove) hk
  rw [hj] at hNone
  cases hNone

theorem Stuck.unique {b c : α} (hb : Stuck up a root b) (hc : Stuck up a root c) : b = c := by
  obtain ⟨m, hAt, hTop, -⟩ := hb
  obtain ⟨n, hAt', hTop', -⟩ := hc
  have hAbove := ancestor_above hAt hTop
  have hAbove' := ancestor_above hAt' hTop'
  have hSame : m = n := by
    by_contra hNe
    rcases Nat.lt_or_gt_of_ne hNe with hLess | hMore
    · rw [ancestor_none_of_le hAbove (by omega : m + 1 ≤ n)] at hAt'
      cases hAt'
    · rw [ancestor_none_of_le hAbove' (by omega : n + 1 ≤ m)] at hAt
      cases hAt
  rw [hSame, hAt'] at hAt
  cases hAt
  rfl

theorem Reaches.unique {m n : ℕ} {xs ys : List M} (h : Reaches up a root m xs) (h' : Reaches up a root n ys) :
    m = n ∧ xs = ys := by
  have hSame : m = n := by
    by_contra hNe
    rcases Nat.lt_or_gt_of_ne hNe with hLess | hMore
    · exact h'.first m hLess h.ancestor_eq
    · exact h.first n hMore h'.ancestor_eq
  have hClimb := h.arrives
  rw [hSame, h'.arrives] at hClimb
  cases hClimb
  exact ⟨hSame, rfl⟩

/-- A root that can be reached is reached for a first time. -/
theorem exists_reaches_iff : (∃ n labels, Reaches up a root n labels) ↔ Relation.ReflTransGen (Parent up) a root := by
  classical
  constructor
  · rintro ⟨n, labels, h⟩
    have hClimbs : ∀ n b, ancestor up n a = some b → Relation.ReflTransGen (Parent up) a b := by
      intro n
      induction n with
      | zero =>
        intro b hb
        cases hb
        exact .refl
      | succ n ih =>
        intro b hb
        rw [ancestor_succ] at hb
        obtain ⟨c, hc, hParent⟩ := Option.bind_eq_some_iff.mp hb
        obtain ⟨⟨d, label⟩, hUp, hFirst⟩ := Option.map_eq_some_iff.mp hParent
        cases hFirst
        exact (ih c hc).tail ⟨label, hUp⟩
    exact hClimbs n root h.ancestor_eq
  · intro h
    have hSome : ∃ n, ancestor up n a = some root := by
      induction h with
      | refl => exact ⟨0, rfl⟩
      | tail _ hLast ih =>
        obtain ⟨n, hn⟩ := ih
        obtain ⟨label, hUp⟩ := hLast
        refine ⟨n + 1, ?_⟩
        rw [ancestor_succ, hn, Option.bind_some, hUp, Option.map_some]
    obtain ⟨labels, hLabels⟩ := ancestor_eq_some_iff.mp (Nat.find_spec hSome)
    exact ⟨Nat.find hSome, labels, hLabels, fun k hk => Nat.find_min hSome hk⟩

/-- An element that is met on the way up to the root splits the way in two. -/
theorem Reaches.split {mid : α} {m n : ℕ} {labels : List M} (h : Reaches up a root n labels) (hm : m ≤ n)
    (hMid : ancestor up m a = some mid) :
    ∃ upper lower, Reaches up mid root (n - m) upper ∧ Reaches up a mid m lower ∧ labels = upper ++ lower := by
  obtain ⟨lower, hLower⟩ := ancestor_eq_some_iff.mp hMid
  have hSum : m + (n - m) = n := by omega
  have hArrives := h.arrives
  rw [← hSum, climb_add, hLower, Option.bind_some] at hArrives
  obtain ⟨⟨there, upper⟩, hUpper, hEq⟩ := Option.map_eq_some_iff.mp hArrives
  obtain ⟨hRoot, hLabels⟩ := Prod.mk.inj hEq
  subst hLabels
  have hAbove : ∀ k, ancestor up (m + k) a = ancestor up k mid := by
    intro k
    rw [ancestor_add, hMid, Option.bind_some]
  refine ⟨upper, lower, ⟨hUpper.trans (by rw [← hRoot]), ?_⟩, ⟨hLower, ?_⟩, rfl⟩
  · intro k hk hEarlier
    exact h.first (m + k) (by omega) ((hAbove k).trans hEarlier)
  · -- met a first time before, `mid` would lead to the root a second time
    intro k hk hEarlier
    have hShort : ancestor up (k + (n - m)) a = some root := by
      rw [ancestor_add, hEarlier, Option.bind_some, ← hAbove, hSum, h.ancestor_eq]
    exact h.first (k + (n - m)) (by omega) hShort

end Ends

end Ancestry
