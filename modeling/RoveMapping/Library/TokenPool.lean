import Mathlib.Algebra.Order.BigOperators.Group.Finset
import Mathlib.Algebra.Order.BigOperators.Group.Multiset
import Mathlib.Data.Fintype.BigOperators
import Mathlib.Data.Fintype.Card
import Mathlib.Tactic.Abel

/-! # A queue of tokens shared by holders that keep at most one each

Taking and giving back only move tokens, so the tokens in the queue and in hand together never
change. From this: no token has two holders, and a holder without one finds the queue non-empty.
-/
set_option autoImplicit false

structure TokenPool (ι τ : Type) where
  free : List τ
  held : ι → Option τ

namespace TokenPool

variable {ι τ : Type}

def inHand (token : Option τ) : Multiset τ := token.elim 0 fun t => {t}

@[simp] theorem inHand_none : inHand (none : Option τ) = 0 := rfl
@[simp] theorem inHand_some (t : τ) : inHand (some t) = {t} := rfl

theorem card_inHand_le (token : Option τ) : (inHand token).card ≤ 1 := by
  cases token with
  | none => simp
  | some t => simp

section Moves

variable [DecidableEq ι] (pool : TokenPool ι τ)

/-- The oldest token of the queue goes to `i`; there is none to take when the queue is empty. -/
def take (i : ι) : Option (τ × TokenPool ι τ) :=
  match pool.free with
  | [] => none
  | t :: rest => some (t, ⟨rest, Function.update pool.held i (some t)⟩)

def give (i : ι) (t : τ) : TokenPool ι τ := ⟨pool.free ++ [t], Function.update pool.held i none⟩

theorem take_eq_some {i : ι} {t : τ} {next : TokenPool ι τ} (h : pool.take i = some (t, next)) :
    pool.free = t :: next.free ∧ next.held = Function.update pool.held i (some t) := by
  unfold take at h
  split at h
  · cases h
  · rename_i hFree
    cases h
    exact ⟨hFree, rfl⟩

end Moves

variable [Fintype ι]

def tokens (pool : TokenPool ι τ) : Multiset τ := ↑pool.free + ∑ i, inHand (pool.held i)

theorem mem_tokens_of_held {pool : TokenPool ι τ} {i : ι} {t : τ} (h : pool.held i = some t) : t ∈ pool.tokens := by
  refine Multiset.mem_add.mpr (.inr (Multiset.mem_sum.mpr ⟨i, Finset.mem_univ i, ?_⟩))
  rw [h]
  exact Multiset.mem_singleton_self t

variable {pool : TokenPool ι τ}

/-- With a token for every holder, one without a token finds the queue non-empty. -/
theorem free_ne_nil (hEnough : Fintype.card ι ≤ pool.tokens.card) {i : ι} (hi : pool.held i = none) : pool.free ≠ [] := by
  intro hFree
  have hHeld : (∑ j, inHand (pool.held j)).card < Fintype.card ι := by
    rw [Multiset.card_sum, ← Finset.card_univ, Finset.card_eq_sum_ones]
    apply Finset.sum_lt_sum fun j _ => card_inHand_le _
    exact ⟨i, Finset.mem_univ i, by simp [hi]⟩
  rw [tokens, hFree, Multiset.coe_nil, zero_add] at hEnough
  exact absurd hHeld hEnough.not_gt

variable [DecidableEq ι]

theorem sum_inHand_update (held : ι → Option τ) {i : ι} (token : Option τ) :
    ∑ j, inHand (Function.update held i token j) + inHand (held i) = ∑ j, inHand (held j) + inHand token := by
  rw [← Finset.add_sum_erase _ _ (Finset.mem_univ i), ← Finset.add_sum_erase _ (fun j => inHand (held j)) (Finset.mem_univ i)]
  have hOthers : ∑ j ∈ Finset.univ.erase i, inHand (Function.update held i token j) =
      ∑ j ∈ Finset.univ.erase i, inHand (held j) := by
    apply Finset.sum_congr rfl
    intro j hj
    rw [Function.update_of_ne (Finset.ne_of_mem_erase hj)]
  rw [hOthers, Function.update_self]
  abel

theorem tokens_take {next : TokenPool ι τ} {i : ι} {t : τ} (hHeld : pool.held i = none)
    (h : pool.take i = some (t, next)) : next.tokens = pool.tokens := by
  obtain ⟨hFree, hNext⟩ := pool.take_eq_some h
  have hSum := sum_inHand_update pool.held (i := i) (some t)
  rw [hHeld, inHand_none, add_zero, ← hNext] at hSum
  rw [tokens, tokens, hSum, hFree, ← Multiset.cons_coe, ← Multiset.singleton_add, inHand_some]
  abel

theorem tokens_give {i : ι} {t : τ} (hHeld : pool.held i = some t) : (pool.give i t).tokens = pool.tokens := by
  have hSum := sum_inHand_update pool.held (i := i) none
  rw [hHeld, inHand_none, add_zero, inHand_some] at hSum
  rw [tokens, tokens, ← hSum, give, ← Multiset.coe_add, Multiset.coe_singleton]
  abel

theorem holder_unique (hNodup : pool.tokens.Nodup) {i j : ι} {t : τ} (hi : pool.held i = some t)
    (hj : pool.held j = some t) : i = j := by
  by_contra hNe
  have hPair : inHand (pool.held i) + inHand (pool.held j) ≤ pool.tokens := by
    have hSub : ({i, j} : Finset ι) ⊆ Finset.univ := Finset.subset_univ _
    calc inHand (pool.held i) + inHand (pool.held j) = ∑ k ∈ {i, j}, inHand (pool.held k) := by
          rw [Finset.sum_pair hNe]
      _ ≤ ∑ k, inHand (pool.held k) := Finset.sum_le_sum_of_subset hSub
      _ ≤ pool.tokens := Multiset.le_add_left _ _
  rw [hi, hj, inHand_some] at hPair
  have hTwice := (Multiset.nodup_add.mp (Multiset.nodup_of_le hPair hNodup)).2.2
  exact Multiset.disjoint_left.mp hTwice (Multiset.mem_singleton_self t) (Multiset.mem_singleton_self t)

end TokenPool
