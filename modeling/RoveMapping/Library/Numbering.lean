import Mathlib.Data.List.Count
import Mathlib.Data.List.Nodup

/-! # Numbering the repeats of a list

Each entry is labelled with how often it occurred before. The occurrences are distinct, so the
labels are as soon as no label of a repeat is an entry of its own.
-/
namespace Numbering
set_option autoImplicit false

variable {α : Type} [DecidableEq α]

/-- Each entry with the number of its earlier occurrences, those of `seen` included. -/
def occurrences : List α → List α → List (α × ℕ)
  | _, [] => []
  | seen, x :: rest => (x, seen.count x) :: occurrences (x :: seen) rest

theorem mem_occurrences {seen entries : List α} {y : α} {k : ℕ} :
    (y, k) ∈ occurrences seen entries ↔ seen.count y ≤ k ∧ k < seen.count y + entries.count y := by
  induction entries generalizing seen with
  | nil => simp [occurrences]
  | cons x rest ih =>
    rw [occurrences, List.mem_cons, ih]
    by_cases hy : y = x
    · subst hy
      rw [List.count_cons_self, List.count_cons_self, Prod.mk.injEq]
      constructor
      · rintro (⟨_, rfl⟩ | ⟨hLow, hHigh⟩)
        · omega
        · omega
      · rintro ⟨hLow, hHigh⟩
        by_cases hFirst : k = seen.count y
        · exact .inl ⟨rfl, hFirst⟩
        · exact .inr (by omega)
    · rw [List.count_cons_of_ne (Ne.symm hy), List.count_cons_of_ne (Ne.symm hy)]
      constructor
      · rintro (h | h)
        · exact absurd (Prod.mk.inj h).1 hy
        · exact h
      · exact .inr

theorem nodup_occurrences (seen entries : List α) : (occurrences seen entries).Nodup := by
  induction entries generalizing seen with
  | nil => exact List.nodup_nil
  | cons x rest ih =>
    rw [occurrences, List.nodup_cons]
    constructor
    · intro h
      have hLow := (mem_occurrences.mp h).1
      rw [List.count_cons_self] at hLow
      omega
    · exact ih _

/-- The first occurrence keeps its name, and the labels of the repeats determine entry and number. -/
structure Suffixing (label : α → ℕ → α) : Prop where
  first : ∀ x, label x 0 = x
  unique : ∀ x y k l, label x (k + 1) = label y (l + 1) → x = y ∧ k = l
  changes : ∀ x k, label x (k + 1) ≠ x

def number (label : α → ℕ → α) (entries : List α) : List α := (occurrences [] entries).map fun entry => label entry.1 entry.2

theorem mem_occurrences_nil {entries : List α} {y : α} {k : ℕ} : (y, k) ∈ occurrences [] entries ↔ k < entries.count y := by
  rw [mem_occurrences]
  simp

/-- The labels are distinct exactly when no label of a repeat is an entry. -/
theorem nodup_number_iff {label : α → ℕ → α} (hLabel : Suffixing label) (entries : List α) :
    (number label entries).Nodup ↔ ∀ x k, 0 < k → k < entries.count x → label x k ∉ entries := by
  rw [number, List.nodup_map_iff_inj_on (nodup_occurrences [] entries)]
  constructor
  · intro hInj x k hk hCount hMem
    have hRepeat : (x, k) ∈ occurrences [] entries := mem_occurrences_nil.mpr hCount
    have hFirst : (label x k, 0) ∈ occurrences [] entries := mem_occurrences_nil.mpr (List.count_pos_iff.mpr hMem)
    have hEq := hInj _ hRepeat _ hFirst (hLabel.first _).symm
    rw [(Prod.mk.inj hEq).2] at hk
    omega
  · intro hNone
    have hApart : ∀ x k y, (x, k + 1) ∈ occurrences [] entries → (y, 0) ∈ occurrences [] entries →
        label x (k + 1) ≠ label y 0 := by
      intro x k y hx hy hEq
      rw [hLabel.first] at hEq
      apply hNone x (k + 1) (Nat.succ_pos k) (mem_occurrences_nil.mp hx)
      rw [hEq]
      exact List.count_pos_iff.mp (mem_occurrences_nil.mp hy)
    rintro ⟨x, k⟩ hx ⟨y, l⟩ hy hEq
    cases k with
    | zero =>
      cases l with
      | zero => simpa [hLabel.first] using hEq
      | succ l => exact absurd hEq.symm (hApart y l x hy hx)
    | succ k =>
      cases l with
      | zero => exact absurd hEq (hApart x k y hx hy)
      | succ l =>
        obtain ⟨rfl, rfl⟩ := hLabel.unique x y k l hEq
        rfl

/-- A name that no repeat gets is a label exactly when it is an entry. -/
theorem mem_number_iff {label : α → ℕ → α} (hLabel : Suffixing label) {entries : List α} {y : α}
    (hNever : ∀ x k, label x (k + 1) ≠ y) : y ∈ number label entries ↔ y ∈ entries := by
  rw [number, List.mem_map]
  constructor
  · rintro ⟨⟨x, k⟩, hx, rfl⟩
    cases k with
    | zero =>
      rw [hLabel.first]
      exact List.count_pos_iff.mp (mem_occurrences_nil.mp hx)
    | succ k => exact absurd rfl (hNever x k)
  · intro hMem
    exact ⟨(y, 0), mem_occurrences_nil.mpr (List.count_pos_iff.mpr hMem), hLabel.first y⟩

end Numbering
