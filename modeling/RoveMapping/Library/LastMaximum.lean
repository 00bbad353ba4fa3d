import Mathlib.Data.List.Sort
import Mathlib.Order.Lattice

/-! # The last element of a stable sort

Sorting by a key with a stable sort puts the last of the greatest elements at the end.
-/
namespace LastMaximum
set_option autoImplicit false

variable {α β : Type} [LinearOrder β]

def latest (key : α → β) (xs : List α) : Option α := (xs.mergeSort fun a b => key a ≤ key b).getLast?

/-- The last occurrence of a greatest key. -/
def Last (key : α → β) (x : α) (xs : List α) : Prop :=
  ∃ front back, xs = front ++ x :: back ∧ (∀ y ∈ front, key y ≤ key x) ∧ ∀ y ∈ back, key y < key x

variable {key : α → β}

theorem last_cons {a x : α} {xs : List α} :
    Last key x (a :: xs) ↔ (x = a ∧ ∀ y ∈ xs, key y < key a) ∨ (Last key x xs ∧ key a ≤ key x) := by
  constructor
  · rintro ⟨_ | ⟨b, front⟩, back, hSplit, hFront, hBack⟩
    · cases hSplit
      exact .inl ⟨rfl, hBack⟩
    · cases hSplit
      exact .inr ⟨⟨front, back, rfl, fun y hy => hFront y (.tail _ hy), hBack⟩, hFront a (.head _)⟩
  · rintro (⟨rfl, hBack⟩ | ⟨⟨front, back, rfl, hFront, hBack⟩, hHead⟩)
    · exact ⟨[], xs, rfl, nofun, hBack⟩
    · exact ⟨a :: front, back, rfl, List.forall_mem_cons.mpr ⟨hHead, hFront⟩, hBack⟩

theorem Last.mem {x : α} {xs : List α} (h : Last key x xs) : x ∈ xs := by
  obtain ⟨front, back, rfl, -⟩ := h
  simp

theorem Last.le {x y : α} {xs : List α} (h : Last key x xs) (hy : y ∈ xs) : key y ≤ key x := by
  obtain ⟨front, back, rfl, hFront, hBack⟩ := h
  rcases List.mem_append.mp hy with hy | hy
  · exact hFront y hy
  · rcases List.mem_cons.mp hy with rfl | hy
    · exact le_rfl
    · exact (hBack y hy).le

/-- Inserting in front moves the last element only when all others are smaller. -/
theorem latest_cons (a : α) (xs : List α) :
    (∀ y ∈ xs, key y < key a) ∧ latest key (a :: xs) = some a ∨
      (∃ y ∈ xs, key a ≤ key y) ∧ latest key (a :: xs) = latest key xs := by
  have hTrans : ∀ a b c : α, decide (key a ≤ key b) → decide (key b ≤ key c) → decide (key a ≤ key c) := by
    intro a b c hab hbc
    simpa using (of_decide_eq_true hab).trans (of_decide_eq_true hbc)
  have hTotal : ∀ a b : α, decide (key a ≤ key b) || decide (key b ≤ key a) := by
    intro a b
    simpa using le_total (key a) (key b)
  obtain ⟨below, above, hSort, hRest, hBelow⟩ := List.mergeSort_cons hTrans hTotal a xs
  have hMem : ∀ y, y ∈ xs ↔ y ∈ below ++ above := fun y => by rw [← hRest, List.mem_mergeSort]
  rw [latest, latest, hSort, hRest]
  cases above with
  | nil =>
    refine .inl ⟨fun y hy => ?_, by simp⟩
    have hy' := hBelow y (by simpa using (hMem y).mp hy)
    simpa using hy'
  | cons b above =>
    have hSorted : (a :: b :: above).Pairwise fun a b => decide (key a ≤ key b) = true := by
      have hAll := List.pairwise_mergeSort hTrans hTotal (a :: xs)
      rw [hSort] at hAll
      exact (List.pairwise_append.mp hAll).2.1
    refine .inr ⟨⟨b, (hMem b).mpr (by simp), ?_⟩, by simp [List.getLast?_append]⟩
    exact of_decide_eq_true ((List.pairwise_cons.mp hSorted).1 b (.head _))

theorem latest_eq_some_iff {x : α} {xs : List α} : latest key xs = some x ↔ Last key x xs := by
  induction xs generalizing x with
  | nil =>
    rw [latest, List.mergeSort_nil]
    exact ⟨nofun, fun h => nomatch h.mem⟩
  | cons a xs ih =>
    rw [last_cons]
    rcases (latest_cons a xs : _ ∧ latest key (a :: xs) = _ ∨ _) with ⟨hSmaller, hLatest⟩ | ⟨⟨y, hy, hLe⟩, hLatest⟩
    · rw [hLatest, Option.some.injEq]
      constructor
      · rintro rfl
        exact .inl ⟨rfl, hSmaller⟩
      · rintro (⟨rfl, -⟩ | ⟨hLast, hLe⟩)
        · rfl
        · exact absurd (hSmaller x hLast.mem) (not_lt.mpr hLe)
    · rw [hLatest, ih]
      constructor
      · exact fun hLast => .inr ⟨hLast, hLe.trans (hLast.le hy)⟩
      · rintro (⟨rfl, hSmaller⟩ | ⟨hLast, -⟩)
        · exact absurd (hSmaller y hy) (not_lt.mpr hLe)
        · exact hLast

end LastMaximum
