import Mathlib.Data.List.Basic
import Mathlib.Data.List.Perm.Basic

/-! # Steps that may fail

A sequence of steps in `Option` or `Except` succeeds when all of its steps do.
-/
namespace Fallible
set_option autoImplicit false

variable {α β γ ε : Type}

/-! ## `Except` -/

theorem bind_ok {x : Except ε α} {f : α → Except ε β} {b : β} (h : (x >>= f) = .ok b) :
    ∃ a, x = .ok a ∧ f a = .ok b := by
  cases x with
  | error exc => cases h
  | ok a => exact ⟨a, rfl, h⟩

theorem bind_ok_iff {x : Except ε α} {f : α → Except ε β} :
    (∃ b, (x >>= f) = .ok b) ↔ ∃ a, x = .ok a ∧ ∃ b, f a = .ok b := by
  constructor
  · rintro ⟨b, h⟩
    obtain ⟨a, hFirst, hRest⟩ := bind_ok h
    exact ⟨a, hFirst, b, hRest⟩
  · rintro ⟨a, rfl, h⟩
    exact h

theorem mapM_ok_iff {f : α → Except ε β} {xs : List α} :
    (∃ ys, xs.mapM f = .ok ys) ↔ ∀ x ∈ xs, ∃ y, f x = .ok y := by
  induction xs with
  | nil => exact ⟨fun _ => nofun, fun _ => ⟨[], rfl⟩⟩
  | cons x xs ih =>
    rw [List.forall_mem_cons, ← ih, List.mapM_cons, bind_ok_iff]
    constructor
    · rintro ⟨y, hHead, hRest⟩
      obtain ⟨ys, hTail, -⟩ := bind_ok_iff.mp hRest
      exact ⟨⟨y, hHead⟩, ys, hTail⟩
    · rintro ⟨⟨y, hHead⟩, ys, hTail⟩
      exact ⟨y, hHead, bind_ok_iff.mpr ⟨ys, hTail, y :: ys, rfl⟩⟩

theorem length_of_mapM_ok {f : α → Except ε β} {xs : List α} {ys : List β} (h : xs.mapM f = .ok ys) :
    ys.length = xs.length := by
  induction xs generalizing ys with
  | nil =>
    cases h
    rfl
  | cons x xs ih =>
    rw [List.mapM_cons] at h
    obtain ⟨y, -, hRest⟩ := bind_ok h
    obtain ⟨rest, hTail, hAll⟩ := bind_ok hRest
    cases hAll
    rw [List.length_cons, List.length_cons, ih hTail]

theorem forall₂_of_mapM_ok {f : α → Except ε β} {xs : List α} {ys : List β} (h : xs.mapM f = .ok ys) :
    List.Forall₂ (fun x y => f x = .ok y) xs ys := by
  induction xs generalizing ys with
  | nil =>
    cases h
    exact .nil
  | cons x xs ih =>
    rw [List.mapM_cons] at h
    obtain ⟨y, hHead, hRest⟩ := bind_ok h
    obtain ⟨rest, hTail, hAll⟩ := bind_ok hRest
    cases hAll
    exact .cons hHead (ih hTail)

theorem bind_error {x : Except ε α} {f : α → Except ε β} {e : ε} (h : (x >>= f) = .error e) :
    x = .error e ∨ ∃ a, x = .ok a ∧ f a = .error e := by
  cases x with
  | error exc =>
    cases h
    exact .inl rfl
  | ok a => exact .inr ⟨a, rfl, h⟩

/-- A loop fails with an error of one of its steps. -/
theorem foldlM_error {f : β → α → Except ε β} {xs : List α} {b : β} {e : ε} (h : xs.foldlM f b = .error e) :
    ∃ s, ∃ x ∈ xs, f s x = .error e := by
  induction xs generalizing b with
  | nil => cases h
  | cons x xs ih =>
    rw [List.foldlM_cons] at h
    rcases bind_error h with hHead | ⟨s, -, hTail⟩
    · exact ⟨b, x, List.mem_cons_self, hHead⟩
    · obtain ⟨s', y, hMem, hError⟩ := ih hTail
      exact ⟨s', y, List.mem_cons_of_mem x hMem, hError⟩

/-! ## `Option` -/

theorem mapM_of_forall {f : α → Option β} {view : β → γ} {g : α → γ} (xs : List α)
    (h : ∀ a ∈ xs, ∃ b, f a = some b ∧ view b = g a) : ∃ ys, xs.mapM f = some ys ∧ ys.map view = xs.map g := by
  induction xs with
  | nil => exact ⟨[], rfl, rfl⟩
  | cons a xs ih =>
    obtain ⟨b, hHead, hView⟩ := h a (by simp)
    obtain ⟨bs, hTail, hViews⟩ := ih fun c hc => h c (by simp [hc])
    exact ⟨b :: bs, by simp [List.mapM_cons, hHead, hTail], by simp [hView, hViews]⟩

theorem mapM_eq_some_map {f : α → Option β} {g : α → β} {xs : List α} (h : ∀ a ∈ xs, f a = some (g a)) :
    xs.mapM f = some (xs.map g) := by
  obtain ⟨ys, hMap, hView⟩ := mapM_of_forall (g := g) xs fun a ha => ⟨g a, h a ha, id_eq (g a)⟩
  rw [hMap, ← hView, List.map_id]

theorem exists_of_mapM {f : α → Option β} {xs : List α} {ys : List β} (h : xs.mapM f = some ys) {a : α}
    (ha : a ∈ xs) : ∃ b, f a = some b := by
  induction xs generalizing ys with
  | nil => cases ha
  | cons c xs ih =>
    rw [List.mapM_cons] at h
    obtain ⟨b, hHead, hRest⟩ := Option.bind_eq_some_iff.mp h
    obtain ⟨bs, hTail, -⟩ := Option.bind_eq_some_iff.mp hRest
    cases ha with
    | head => exact ⟨b, hHead⟩
    | tail _ ha => exact ih hTail ha

/-- The last pass of a loop over indices. -/
theorem foldlM_range_succ (f : β → ℕ → Option β) (b : β) (n : ℕ) :
    (List.range (n + 1)).foldlM f b = ((List.range n).foldlM f b).bind fun s => f s n := by
  rw [List.range_succ, List.foldlM_append]
  simp

theorem foldlM_perm {f : β → α → Option β} (hComm : ∀ b x y, (f b x).bind (f · y) = (f b y).bind (f · x))
    {xs ys : List α} (h : xs.Perm ys) (b : β) : xs.foldlM f b = ys.foldlM f b := by
  induction h generalizing b with
  | nil => rfl
  | cons x _ ih =>
    rw [List.foldlM_cons, List.foldlM_cons]
    exact Option.bind_congr fun next _ => ih next
  | swap x y xs =>
    simp only [List.foldlM_cons, Option.bind_eq_bind]
    rw [← Option.bind_assoc, ← Option.bind_assoc, hComm]
  | trans _ _ ih ih' => exact (ih b).trans (ih' b)

end Fallible
