import Mathlib.Algebra.BigOperators.Group.List.Basic
import Mathlib.Algebra.Order.BigOperators.Group.List
import Mathlib.Algebra.Order.Floor.Semiring
import Mathlib.Algebra.Order.Ring.Defs
import Mathlib.Data.List.Sort
import Mathlib.Tactic.Linarith
import Mathlib.Tactic.Ring

/-! # Order statistics of a list, and positive combinations of them

The value at a rank of the sorted list is at most `t` exactly when more entries than the rank are
at most `t`. This count decides what the change of one entry does to a rank, and a combination of
ranks with positive weights moves exactly when one of its ranks does.
-/
namespace OrderStatistics
set_option autoImplicit false

section Ranks

variable {α : Type} [LinearOrder α]

def sorted (values : List α) : List α := values.insertionSort (· ≤ ·)

def countLe (values : List α) (t : α) : ℕ := values.countP (· ≤ t)

def ranked (default : α) (values : List α) (j : ℕ) : α := (sorted values).getD j default

@[simp] theorem length_sorted (values : List α) : (sorted values).length = values.length :=
  List.length_insertionSort _ values

theorem sorted_eq_of_perm {values values' : List α} (h : values.Perm values') : sorted values = sorted values' :=
  List.Perm.eq_of_pairwise' (List.pairwise_insertionSort _ values) (List.pairwise_insertionSort _ values')
    ((List.perm_insertionSort _ values).trans (h.trans (List.perm_insertionSort _ values').symm))

theorem countLe_sorted (values : List α) (t : α) : countLe (sorted values) t = countLe values t :=
  (List.perm_insertionSort _ values).countP_eq _

theorem countLe_cons (x : α) (values : List α) (t : α) :
    countLe (x :: values) t = countLe values t + if x ≤ t then 1 else 0 := by
  simp [countLe, List.countP_cons]

theorem getD_le_iff {values : List α} (hSorted : values.Pairwise (· ≤ ·)) {default t : α} {j : ℕ}
    (hj : j < values.length) : values.getD j default ≤ t ↔ j < countLe values t := by
  induction values generalizing j with
  | nil => cases hj
  | cons x rest ih =>
    obtain ⟨hx, hRest⟩ := List.pairwise_cons.mp hSorted
    rw [countLe_cons]
    by_cases hxt : x ≤ t
    · rw [if_pos hxt]
      cases j with
      | zero => simp [hxt]
      | succ j =>
        rw [List.getD_cons_succ, ih hRest (Nat.lt_of_succ_lt_succ hj)]
        omega
    · have hAbove : ∀ y ∈ x :: rest, ¬ y ≤ t := by
        intro y hy hyt
        rcases List.mem_cons.mp hy with rfl | hy
        · exact hxt hyt
        · exact hxt ((hx y hy).trans hyt)
      have hNone : countLe rest t = 0 := by
        simpa [countLe, List.countP_eq_zero] using fun y hy => hAbove y (List.mem_cons_of_mem _ hy)
      have hAt : (x :: rest).getD j default = (x :: rest)[j] := (List.getElem_eq_getD default).symm
      rw [if_neg hxt, hNone, hAt]
      simpa using hAbove _ (List.getElem_mem hj)

theorem ranked_le_iff {default t : α} {values : List α} {j : ℕ} (hj : j < values.length) :
    ranked default values j ≤ t ↔ j < countLe values t := by
  have hSorted : (sorted values).Pairwise (· ≤ ·) := List.pairwise_insertionSort _ values
  rw [ranked, getD_le_iff hSorted (by simpa using hj), countLe_sorted]

theorem map_ranked_range (default : α) (values : List α) :
    (List.range values.length).map (ranked default values) = sorted values := by
  apply List.ext_getElem (by simp)
  intro j h _
  simp [ranked, List.getD_eq_getElem?_getD, List.getElem?_eq_getElem (show j < (sorted values).length by simpa using h)]

theorem foldl_max_eq_ranked (default x : α) (rest : List α) :
    rest.foldl max x = ranked default (x :: rest) rest.length := by
  have hFold : ∀ (rest : List α) (x t : α), rest.foldl max x ≤ t ↔ ∀ y ∈ x :: rest, y ≤ t := by
    intro rest
    induction rest with
    | nil => simp
    | cons y rest ih => intro x t; simp [ih, and_assoc]
  refine eq_of_forall_ge_iff fun t => ?_
  have hCount : rest.length < countLe (x :: rest) t ↔ countLe (x :: rest) t = (x :: rest).length := by
    have hLe : countLe (x :: rest) t ≤ (x :: rest).length := List.countP_le_length
    rw [List.length_cons] at hLe ⊢
    omega
  rw [hFold, ranked_le_iff (by simp), hCount, countLe, List.countP_eq_length]
  simp

theorem foldl_min_eq_ranked (default x : α) (rest : List α) :
    rest.foldl min x = ranked default (x :: rest) 0 := by
  have hFold : ∀ (rest : List α) (x t : α), rest.foldl min x ≤ t ↔ ∃ y ∈ x :: rest, y ≤ t := by
    intro rest
    induction rest with
    | nil => simp
    | cons y rest ih => intro x t; simp [ih, or_assoc]
  refine eq_of_forall_ge_iff fun t => ?_
  rw [hFold, ranked_le_iff (by simp), countLe, List.countP_pos_iff]
  simp

theorem ranked_mono {default : α} {values : List α} {j j' : ℕ} (h : j ≤ j') (hj' : j' < values.length) :
    ranked default values j ≤ ranked default values j' := by
  have hSelf : j' < countLe values (ranked default values j') := (ranked_le_iff hj').mp le_rfl
  exact (ranked_le_iff (h.trans_lt hj')).mpr (h.trans_lt hSelf)

theorem ranked_of_lt {default default' : α} {values : List α} {j : ℕ} (hj : j < values.length) :
    ranked default values j = ranked default' values j := by
  have hj' : j < (sorted values).length := by rwa [length_sorted]
  simp [ranked, List.getD_eq_getElem?_getD, List.getElem?_eq_getElem hj']

theorem ranked_of_length_le {default : α} {values : List α} {j : ℕ} (hj : values.length ≤ j) :
    ranked default values j = default := by
  have hj' : (sorted values).length ≤ j := by rwa [length_sorted]
  simp [ranked, List.getD_eq_getElem?_getD, List.getElem?_eq_none hj']

theorem ranked_mem {default : α} {values : List α} {j : ℕ} (hj : j < values.length) : ranked default values j ∈ values := by
  have hj' : j < (sorted values).length := by rwa [length_sorted]
  have hMem : (sorted values)[j] ∈ sorted values := List.getElem_mem hj'
  rw [ranked, List.getD_eq_getElem?_getD, List.getElem?_eq_getElem hj', Option.getD_some]
  exact (List.mem_insertionSort _).mp hMem

/-- Continued by a value that no entry exceeds, the ranks are monotone. -/
theorem ranked_monotone {top : α} {values : List α} (h : ∀ x ∈ values, x ≤ top) : Monotone (ranked top values) := by
  intro j j' hj
  by_cases hEnd : j' < values.length
  · exact ranked_mono hj hEnd
  · rw [ranked_of_length_le (not_lt.mp hEnd)]
    by_cases hStart : j < values.length
    · exact h _ (ranked_mem hStart)
    · exact (ranked_of_length_le (not_lt.mp hStart)).le

theorem sorted_append_replicate {top : α} {values : List α} (h : ∀ x ∈ values, x ≤ top) (n : ℕ) :
    sorted (values ++ List.replicate n top) = sorted values ++ List.replicate n top := by
  have hPerm : (sorted (values ++ List.replicate n top)).Perm (sorted values ++ List.replicate n top) :=
    (List.perm_insertionSort _ _).trans ((List.perm_insertionSort _ values).symm.append_right _)
  refine List.Perm.eq_of_pairwise' (List.pairwise_insertionSort _ _) ?_ hPerm
  rw [List.pairwise_append]
  refine ⟨List.pairwise_insertionSort _ values, ?_, ?_⟩
  · exact List.pairwise_replicate.mpr (.inr le_rfl)
  · intro x hx y hy
    rw [List.eq_of_mem_replicate hy]
    exact h x ((List.mem_insertionSort _).mp hx)

theorem ranked_append_replicate {default top : α} {values : List α} (h : ∀ x ∈ values, x ≤ top) {n j : ℕ}
    (hj : j < values.length + n) : ranked default (values ++ List.replicate n top) j = ranked top values j := by
  rw [ranked, ranked, sorted_append_replicate h, List.getD_eq_getElem?_getD, List.getD_eq_getElem?_getD]
  by_cases hIn : j < (sorted values).length
  · rw [List.getElem?_append_left hIn, List.getElem?_eq_getElem hIn, Option.getD_some, Option.getD_some]
  · have hPast : (sorted values).length ≤ j := not_lt.mp hIn
    have hReplicate : j - (sorted values).length < n := by
      rw [length_sorted] at hPast ⊢
      omega
    rw [List.getElem?_append_right hPast, List.getElem?_replicate, if_pos hReplicate, List.getElem?_eq_none hPast]
    rfl

theorem countLe_anti {values values' : List α} (h : List.Forall₂ (· ≤ ·) values values') (t : α) :
    countLe values' t ≤ countLe values t := by
  induction h with
  | nil => exact le_rfl
  | @cons x x' rest rest' hx _ ih =>
    rw [countLe_cons, countLe_cons]
    by_cases hx' : x' ≤ t
    · rw [if_pos hx', if_pos (hx.trans hx')]
      omega
    · rw [if_neg hx']
      omega

/-- No rank falls when no entry does. -/
theorem ranked_le_of_forall₂ {default : α} {values values' : List α} (h : List.Forall₂ (· ≤ ·) values values') {j : ℕ}
    (hj : j < values.length) : ranked default values j ≤ ranked default values' j := by
  have hSelf : j < countLe values' (ranked default values' j) := (ranked_le_iff (h.length_eq ▸ hj)).mp le_rfl
  exact (ranked_le_iff hj).mpr (hSelf.trans_le (countLe_anti h _))

variable {default x x' : α} {others : List α} {j : ℕ}

/-- A rank falls with the change of one entry exactly when some threshold between the two entries
has as many of the others at or below it as the rank says. -/
theorem ranked_cons_lt_iff (hj : j < others.length + 1) :
    ranked default (x' :: others) j < ranked default (x :: others) j ↔
      ∃ t, x' ≤ t ∧ t < x ∧ countLe others t = j := by
  have hLe : ∀ y t, ranked default (y :: others) j ≤ t ↔ j < countLe others t + if y ≤ t then 1 else 0 := by
    intro y t
    rw [ranked_le_iff (by simpa using hj), countLe_cons]
  constructor
  · intro h
    have hBelow := (hLe x' _).mp le_rfl
    have hAbove := (hLe x _).not.mp h.not_ge
    refine ⟨ranked default (x' :: others) j, ?_, ?_, ?_⟩
    · by_contra hx'
      rw [if_neg hx'] at hBelow
      exact hAbove (hBelow.trans_le (Nat.le_add_right _ _))
    · by_contra hx
      rw [if_pos (not_lt.mp hx)] at hAbove
      split at hBelow <;> omega
    · split at hBelow <;> omega
  · rintro ⟨t, hx', hx, hCount⟩
    have hBelow : ranked default (x' :: others) j ≤ t := by
      rw [hLe, if_pos hx', hCount]
      exact Nat.lt_succ_self j
    have hAbove : ¬ ranked default (x :: others) j ≤ t := by
      rw [hLe, if_neg hx.not_ge, hCount]
      exact lt_irrefl j
    exact hBelow.trans_lt (not_le.mp hAbove)

theorem ranked_cons_mono (hj : j < others.length + 1) (h : x' ≤ x) :
    ranked default (x' :: others) j ≤ ranked default (x :: others) j := by
  by_contra hLt
  obtain ⟨t, hx, hx', _⟩ := (ranked_cons_lt_iff hj).mp (not_le.mp hLt)
  exact (hx.trans_lt hx').not_ge h

end Ranks

section Combinations

variable {K : Type} [Field K] [LinearOrder K] [IsStrictOrderedRing K]

def combine (picks : List (ℕ × K)) (values : List K) : K :=
  (picks.map fun pick => pick.2 * ranked 0 values pick.1).sum

/-- Every weight is positive and every rank is one of a list of `n` entries. -/
def Sound (picks : List (ℕ × K)) (n : ℕ) : Prop := ∀ pick ∈ picks, 0 < pick.2 ∧ pick.1 < n

omit [IsStrictOrderedRing K] in
theorem combine_perm (picks : List (ℕ × K)) {values values' : List K} (h : values.Perm values') :
    combine picks values = combine picks values' := by
  simp only [combine, ranked, sorted_eq_of_perm h]

theorem combine_le_of_forall₂ {picks : List (ℕ × K)} {values values' : List K} (hPicks : Sound picks values.length)
    (h : List.Forall₂ (· ≤ ·) values values') : combine picks values ≤ combine picks values' := by
  apply List.sum_le_sum
  intro pick hPick
  obtain ⟨hWeight, hRank⟩ := hPicks pick hPick
  exact mul_le_mul_of_nonneg_left (ranked_le_of_forall₂ h hRank) hWeight.le

variable {picks : List (ℕ × K)} {x x' : K} {others : List K}

/-- A sound combination falls with the change of one entry exactly when one of its ranks does. -/
theorem combine_cons_lt_iff (hPicks : Sound picks (others.length + 1)) :
    combine picks (x' :: others) < combine picks (x :: others) ↔
      ∃ pick ∈ picks, ∃ t, x' ≤ t ∧ t < x ∧ countLe others t = pick.1 := by
  constructor
  · intro h
    by_contra hNone
    refine h.not_ge (List.sum_le_sum ?_)
    intro pick hPick
    obtain ⟨hWeight, hRank⟩ := hPicks pick hPick
    apply mul_le_mul_of_nonneg_left _ hWeight.le
    by_contra hLt
    exact hNone ⟨pick, hPick, (ranked_cons_lt_iff hRank).mp (not_le.mp hLt)⟩
  · rintro ⟨pick, hPick, t, hx', hx, hCount⟩
    apply List.sum_lt_sum
    · intro pick hPick
      obtain ⟨hWeight, hRank⟩ := hPicks pick hPick
      exact mul_le_mul_of_nonneg_left (ranked_cons_mono hRank (hx'.trans hx.le)) hWeight.le
    · obtain ⟨hWeight, hRank⟩ := hPicks pick hPick
      exact ⟨pick, hPick, mul_lt_mul_of_pos_left ((ranked_cons_lt_iff hRank).mpr ⟨t, hx', hx, hCount⟩) hWeight⟩

theorem combine_set_lt_iff {values : List K} {i : ℕ} (hi : i < values.length) (hPicks : Sound picks values.length) :
    combine picks (values.set i x') < combine picks values ↔
      ∃ pick ∈ picks, ∃ t, x' ≤ t ∧ t < values[i] ∧ countLe (values.eraseIdx i) t = pick.1 := by
  have hValues : values.Perm (values[i] :: values.eraseIdx i) := (List.getElem_cons_eraseIdx_perm hi).symm
  have hSet : (values.set i x').Perm (x' :: values.eraseIdx i) := List.set_perm_cons_eraseIdx hi x'
  have hLength : (values.eraseIdx i).length + 1 = values.length := List.length_eraseIdx_add_one hi
  rw [combine_perm picks hSet, combine_perm picks hValues, combine_cons_lt_iff (by rwa [hLength])]

theorem combine_set_gt_iff {values : List K} {i : ℕ} (hi : i < values.length) (hPicks : Sound picks values.length) :
    combine picks values < combine picks (values.set i x') ↔
      ∃ pick ∈ picks, ∃ t, values[i] ≤ t ∧ t < x' ∧ countLe (values.eraseIdx i) t = pick.1 := by
  have hSet : i < (values.set i x').length := by simpa using hi
  have hBack : (values.set i x').set i values[i] = values := by simp
  have h : combine picks ((values.set i x').set i values[i]) < combine picks (values.set i x') ↔ _ :=
    combine_set_lt_iff hSet (by simpa using hPicks)
  rwa [hBack, List.getElem_set_self, List.eraseIdx_set_eq] at h

end Combinations

section Interpolation

variable {K : Type} [Field K] [LinearOrder K] [FloorSemiring K]

/-- A sequence read between its indices. -/
def interpolate (f : ℕ → K) (t : K) : K := f ⌊t⌋₊ * (1 - (t - ⌊t⌋₊)) + f (⌊t⌋₊ + 1) * (t - ⌊t⌋₊)

variable [IsStrictOrderedRing K] {f : ℕ → K} {t : K}

theorem le_interpolate (hf : Monotone f) (ht : 0 ≤ t) : f ⌊t⌋₊ ≤ interpolate f t := by
  have hStep : f ⌊t⌋₊ ≤ f (⌊t⌋₊ + 1) := hf (Nat.le_succ _)
  have hRest : 0 ≤ t - ⌊t⌋₊ := sub_nonneg.mpr (Nat.floor_le ht)
  unfold interpolate
  linarith [mul_le_mul_of_nonneg_right hStep hRest]

theorem interpolate_le (hf : Monotone f) : interpolate f t ≤ f (⌊t⌋₊ + 1) := by
  have hStep : f ⌊t⌋₊ ≤ f (⌊t⌋₊ + 1) := hf (Nat.le_succ _)
  have hRest : 0 ≤ 1 - (t - ⌊t⌋₊) := by linarith [Nat.lt_floor_add_one t]
  unfold interpolate
  linarith [mul_le_mul_of_nonneg_right hStep hRest]

/-- Between two indices the line rises; across an index its value is in between. -/
theorem interpolate_mono (hf : Monotone f) {s : K} (hs : 0 ≤ s) (hst : s ≤ t) : interpolate f s ≤ interpolate f t := by
  have hFloor : ⌊s⌋₊ ≤ ⌊t⌋₊ := Nat.floor_mono hst
  rcases hFloor.eq_or_lt with hSame | hAcross
  · have hStep : f ⌊t⌋₊ ≤ f (⌊t⌋₊ + 1) := hf (Nat.le_succ _)
    unfold interpolate
    rw [hSame]
    linarith [mul_le_mul_of_nonneg_right hStep (sub_nonneg.mpr hst)]
  · calc
      interpolate f s ≤ f (⌊s⌋₊ + 1) := interpolate_le hf
      _ ≤ f ⌊t⌋₊ := hf hAcross
      _ ≤ interpolate f t := le_interpolate hf (hs.trans hst)

theorem interpolate_le_ceil (hf : Monotone f) (ht : 0 ≤ t) : interpolate f t ≤ f ⌈t⌉₊ := by
  rcases (Nat.floor_le_ceil t).eq_or_lt with hExact | hBetween
  · have hIndex : t ≤ ⌊t⌋₊ := (Nat.le_ceil t).trans (by rw [hExact])
    rw [← hExact, interpolate, sub_eq_zero.mpr (le_antisymm hIndex (Nat.floor_le ht))]
    simp
  · exact (interpolate_le hf).trans (hf hBetween)

theorem flat_of_le_interpolate (hf : Monotone f) (h : f (⌊t⌋₊ + 1) ≤ interpolate f t) : f ⌊t⌋₊ = f (⌊t⌋₊ + 1) := by
  have hRest : 0 < 1 - (t - ⌊t⌋₊) := by linarith [Nat.lt_floor_add_one t]
  unfold interpolate at h
  have hFall : (f (⌊t⌋₊ + 1) - f ⌊t⌋₊) * (1 - (t - ⌊t⌋₊)) ≤ 0 := by linarith
  exact le_antisymm (hf (Nat.le_succ _)) (sub_nonpos.mp (nonpos_of_mul_nonpos_left hFall hRest))

theorem flat_of_interpolate_le (hf : Monotone f) (h : interpolate f t ≤ f ⌊t⌋₊) : f ⌊t⌋₊ = f ⌈t⌉₊ := by
  rcases (Nat.floor_le_ceil t).eq_or_lt with hExact | hBetween
  · rw [← hExact]
  · have hCeil : ⌈t⌉₊ = ⌊t⌋₊ + 1 := le_antisymm (Nat.ceil_le_floor_add_one t) hBetween
    have hPast : 0 < t - ⌊t⌋₊ := sub_pos.mpr (Nat.lt_ceil.mp hBetween)
    unfold interpolate at h
    have hFall : (f (⌊t⌋₊ + 1) - f ⌊t⌋₊) * (t - ⌊t⌋₊) ≤ 0 := by linarith
    rw [hCeil]
    exact le_antisymm (hf (Nat.le_succ _)) (sub_nonpos.mp (nonpos_of_mul_nonpos_left hFall hPast))

/-- Two positions have one value exactly when the sequence is constant around them. -/
theorem interpolate_eq_iff (hf : Monotone f) {s : K} (hs : 0 ≤ s) (hst : s ≤ t) :
    interpolate f s = interpolate f t ↔ s = t ∨ f ⌊s⌋₊ = f ⌈t⌉₊ := by
  have ht : 0 ≤ t := hs.trans hst
  have hFloor : ⌊s⌋₊ ≤ ⌊t⌋₊ := Nat.floor_mono hst
  constructor
  · intro hEq
    rcases hst.eq_or_lt with hSame | hLt
    · exact .inl hSame
    have hStep : f ⌊s⌋₊ = f (⌊s⌋₊ + 1) := by
      rcases hFloor.eq_or_lt with hIndex | hAcross
      · unfold interpolate at hEq
        rw [← hIndex] at hEq
        have hFlat : (f (⌊s⌋₊ + 1) - f ⌊s⌋₊) * (t - s) = 0 := by linarith
        exact (sub_eq_zero.mp ((mul_eq_zero.mp hFlat).resolve_right (sub_pos.mpr hLt).ne')).symm
      · exact flat_of_le_interpolate hf (((hf hAcross).trans (le_interpolate hf ht)).trans hEq.ge)
    have hValue : interpolate f t = f ⌊s⌋₊ := by
      rw [← hEq, interpolate, ← hStep]
      ring
    have hLow : f ⌊s⌋₊ = f ⌊t⌋₊ := le_antisymm (hf hFloor) ((le_interpolate hf ht).trans hValue.le)
    exact .inr (hLow.trans (flat_of_interpolate_le hf (hValue.trans hLow).le))
  · rintro (rfl | hFlat)
    · rfl
    · exact le_antisymm (interpolate_mono hf hs hst)
        ((interpolate_le_ceil hf ht).trans (hFlat.ge.trans (le_interpolate hf hs)))

omit [IsStrictOrderedRing K] in
theorem interpolate_congr {g : ℕ → K} (hLow : f ⌊t⌋₊ = g ⌊t⌋₊) (hHigh : t ≠ ⌊t⌋₊ → f (⌊t⌋₊ + 1) = g (⌊t⌋₊ + 1)) :
    interpolate f t = interpolate g t := by
  unfold interpolate
  by_cases hExact : t = ⌊t⌋₊
  · rw [hLow, sub_eq_zero.mpr hExact]
    simp
  · rw [hLow, hHigh hExact]

end Interpolation
end OrderStatistics
