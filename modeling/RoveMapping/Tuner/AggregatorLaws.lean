import RoveMapping.Tuner.Metrics

/-! # The laws of the aggregators

A quantile reads the sorted values at a position between two ranks. It is monotone in the position
and in the values, and the minimum, the median and the maximum are quantiles too, so the
aggregators of one metric are ordered as their positions are.
-/
namespace RoveMapping.Tuner
open OrderStatistics
set_option autoImplicit false

section Statements

variable {K : Type} [Field K] [LinearOrder K] [FloorSemiring K]

/-- `_quantile` with its subscripts checked. -/
def checkedQuantile (values : List K) (q : K) : Option K :=
  match values with
  | [] => some 0
  | [x] => some x
  | _ => do
    let last := values.length - 1
    let idx := q * last
    let lo := ⌊idx⌋₊
    let hi := min (lo + 1) last
    let frac := idx - lo
    let low ← (sorted values)[lo]?
    let high ← (sorted values)[hi]?
    return low * (1 - frac) + high * frac

structure QuantileLaws (values : List K) : Prop where
  inBounds : ∀ q, 0 ≤ q → q ≤ 1 → checkedQuantile values q = some (quantile values q)
  perm : ∀ values' q, values.Perm values' → 0 ≤ q → q ≤ 1 → quantile values' q = quantile values q
  position : ∀ q q', 0 ≤ q → q ≤ q' → q' ≤ 1 → quantile values q ≤ quantile values q'
  entries : ∀ values' q, List.Forall₂ (· ≤ ·) values values' → 0 ≤ q → q ≤ 1 → quantile values q ≤ quantile values' q
  least : quantile values 0 = minimum values
  middle : quantile values (1 / 2) = median values
  greatest : quantile values 1 = maximum values

/-- The value of a metric under another aggregator. -/
def MetricSpec.under (metric : MetricSpec K) (aggregator : Aggregator) (runs : List (BagRunResult K)) : K :=
  (aggregateMetric { metric with aggregator } runs).1

structure AggregatorsOrdered (metric : MetricSpec K) (runs : List (BagRunResult K)) : Prop where
  minMedian : metric.under .min runs ≤ metric.under .median runs
  medianQ75 : metric.under .median runs ≤ metric.under .q75 runs
  q75Q90 : metric.under .q75 runs ≤ metric.under .q90 runs
  q90Max : metric.under .q90 runs ≤ metric.under .max runs

end Statements

section Positions

variable {K : Type} [Field K] [LinearOrder K] [FloorSemiring K] [IsStrictOrderedRing K] {values values' : List K} {q : K}

theorem quantile_zero (h : values ≠ []) : quantile values 0 = minimum values := by
  have hPicks : (quantilePicks 0 values.length : List (ℕ × K)) = Aggregator.min.picks values.length := by
    simp [quantilePicks, Aggregator.picks]
  rw [quantile_eq_combine le_rfl zero_le_one h, minimum_eq_combine h, hPicks]

theorem quantile_one (h : values ≠ []) : quantile values 1 = maximum values := by
  have hPicks : (quantilePicks 1 values.length : List (ℕ × K)) = Aggregator.max.picks values.length := by
    simp only [quantilePicks, one_mul, Nat.floor_natCast, if_true, Aggregator.picks]
  rw [quantile_eq_combine zero_le_one le_rfl h, maximum_eq_combine h, hPicks]

/-- Half of the last index is a rank when the number of values is odd, and midway between two
ranks when it is even. -/
theorem quantilePicks_half {n : ℕ} (hn : 0 < n) : (quantilePicks (1 / 2) n : List (ℕ × K)) = Aggregator.median.picks n := by
  rcases Nat.even_or_odd' n with ⟨m, rfl | rfl⟩
  · obtain ⟨j, rfl⟩ : ∃ j, m = j + 1 := ⟨m - 1, by omega⟩
    have hIndex : (1 / 2 : K) * ((2 * (j + 1) - 1 : ℕ) : K) = j + 1 / 2 := by
      rw [show 2 * (j + 1) - 1 = 2 * j + 1 by omega]
      push_cast
      ring
    have hFloor : ⌊(j : K) + 1 / 2⌋₊ = j := by
      rw [Nat.floor_eq_iff (by positivity)]
      constructor
      · linarith [one_half_pos (α := K)]
      · linarith [one_half_lt_one (α := K)]
    have hBetween : ¬ (j : K) + 1 / 2 = j := by simp
    have hEven : ¬ 2 * (j + 1) % 2 = 1 := by omega
    have hHigh : 2 * (j + 1) / 2 = j + 1 := by omega
    simp only [quantilePicks, Aggregator.picks, hIndex, hFloor, if_neg hBetween, if_neg hEven, hHigh]
    norm_num
  · have hIndex : (1 / 2 : K) * ((2 * m + 1 - 1 : ℕ) : K) = m := by
      rw [Nat.add_sub_cancel]
      push_cast
      ring
    have hOdd : (2 * m + 1) % 2 = 1 := by omega
    have hHalf : (2 * m + 1) / 2 = m := by omega
    simp only [quantilePicks, Aggregator.picks, hIndex, Nat.floor_natCast, if_true, if_pos hOdd, hHalf]

theorem quantile_half (h : values ≠ []) : quantile values (1 / 2) = median values := by
  have hLength : 0 < values.length := List.length_pos_of_ne_nil h
  rw [quantile_eq_combine (by norm_num) (by norm_num) h, median_eq_combine, quantilePicks_half hLength]

theorem checkedQuantile_eq (h1 : q ≤ 1) : checkedQuantile values q = some (quantile values q) := by
  match values with
  | [] => rfl
  | [x] => rfl
  | x :: y :: rest =>
    let all := x :: y :: rest
    have hLast : q * (all.length - 1 : ℕ) ≤ (all.length - 1 : ℕ) := mul_le_of_le_one_left (Nat.cast_nonneg _) h1
    have hLow : ⌊q * (all.length - 1 : ℕ)⌋₊ < (sorted all).length := by
      have hFloor := Nat.floor_le_of_le hLast
      rw [length_sorted]
      exact hFloor.trans_lt (by simp [all])
    have hHigh : min (⌊q * (all.length - 1 : ℕ)⌋₊ + 1) (all.length - 1) < (sorted all).length := by
      rw [length_sorted]
      exact (min_le_right _ _).trans_lt (by simp [all])
    have hRead : ∀ j, j < (sorted all).length → (sorted all)[j]? = some (ranked 0 all j) := by
      intro j hj
      rw [ranked, List.getD_eq_getElem?_getD, List.getElem?_eq_getElem hj, Option.getD_some]
    simp only [checkedQuantile, quantile]
    rw [hRead _ hLow, hRead _ hHigh]
    rfl

omit [Field K] [LinearOrder K] [FloorSemiring K] [IsStrictOrderedRing K] in
theorem ne_nil_of_length (h : values ≠ []) (hLength : values.length = values'.length) : values' ≠ [] := by
  rw [← List.length_pos_iff, ← hLength]
  exact List.length_pos_of_ne_nil h

theorem quantile_perm (h : values ≠ []) (hPerm : values.Perm values') (h0 : 0 ≤ q) (h1 : q ≤ 1) :
    quantile values' q = quantile values q := by
  have h' : values' ≠ [] := ne_nil_of_length h hPerm.length_eq
  rw [quantile_eq_combine h0 h1 h, quantile_eq_combine h0 h1 h', combine_perm _ hPerm, hPerm.length_eq]

theorem quantile_le_of_forall₂ (h : values ≠ []) (hEntries : List.Forall₂ (· ≤ ·) values values') (h0 : 0 ≤ q) (h1 : q ≤ 1) :
    quantile values q ≤ quantile values' q := by
  have hLength : values.length = values'.length := hEntries.length_eq
  rw [quantile_eq_combine h0 h1 h, quantile_eq_combine h0 h1 (ne_nil_of_length h hLength), ← hLength]
  exact combine_le_of_forall₂ (quantilePicks_sound h0 h1 (List.length_pos_of_ne_nil h)) hEntries

/-- The clamp at the last index makes the ranks a monotone sequence. -/
theorem quantile_eq_interpolate (h : values ≠ []) (h1 : q ≤ 1) :
    quantile values q =
      interpolate (fun j => ranked 0 values (min j (values.length - 1))) (q * (values.length - 1 : ℕ)) := by
  match values with
  | [x] => simp [quantile, interpolate, ranked, sorted]
  | x :: y :: rest =>
    have hLast : ⌊q * ((x :: y :: rest).length - 1 : ℕ)⌋₊ ≤ (x :: y :: rest).length - 1 :=
      Nat.floor_le_of_le (mul_le_of_le_one_left (Nat.cast_nonneg _) h1)
    simp only [quantile, interpolate]
    rw [min_eq_left hLast]

theorem quantile_mono (h : values ≠ []) {q' : K} (h0 : 0 ≤ q) (hqq' : q ≤ q') (h1 : q' ≤ 1) :
    quantile values q ≤ quantile values q' := by
  have hLength : 0 < values.length := List.length_pos_of_ne_nil h
  have hRanks : Monotone fun j => ranked 0 values (min j (values.length - 1)) :=
    fun j j' hj => ranked_mono (min_le_min_right _ hj) (by omega)
  have hLast : (0 : K) ≤ (values.length - 1 : ℕ) := Nat.cast_nonneg _
  rw [quantile_eq_interpolate h (hqq'.trans h1), quantile_eq_interpolate h h1]
  exact interpolate_mono hRanks (mul_nonneg h0 hLast) (mul_le_mul_of_nonneg_right hqq' hLast)

/-- The same with the ranks continued by any value, which is never read. -/
theorem quantile_eq_interpolate_ranked (default : K) (h : values ≠ []) (h0 : 0 ≤ q) (h1 : q ≤ 1) :
    quantile values q = interpolate (ranked default values) (q * (values.length - 1 : ℕ)) := by
  have hLength : 0 < values.length := List.length_pos_of_ne_nil h
  have hLast : ⌊q * (values.length - 1 : ℕ)⌋₊ ≤ values.length - 1 :=
    Nat.floor_le_of_le (mul_le_of_le_one_left (Nat.cast_nonneg _) h1)
  rw [quantile_eq_interpolate h h1]
  apply interpolate_congr
  · rw [min_eq_left hLast]
    exact ranked_of_lt (by omega)
  · intro hBetween
    have hLt := floor_lt_last h0 h1 hBetween
    rw [min_eq_left hLt]
    exact ranked_of_lt (by omega)

section Padding

variable {top : K} {n : ℕ}

/-- Values at the top move the position, not the ranks. -/
theorem quantile_padded (h : values ≠ []) (hTop : ∀ x ∈ values, x ≤ top) (h0 : 0 ≤ q) (h1 : q ≤ 1) :
    quantile (values ++ List.replicate n top) q = interpolate (ranked top values) (q * (values.length + n - 1 : ℕ)) := by
  have hLength : 0 < values.length := List.length_pos_of_ne_nil h
  have hNe : values ++ List.replicate n top ≠ [] := List.append_ne_nil_of_left_ne_nil h _
  have hCount : (values ++ List.replicate n top).length = values.length + n := by simp
  have hLast : ⌊q * (values.length + n - 1 : ℕ)⌋₊ ≤ values.length + n - 1 :=
    Nat.floor_le_of_le (mul_le_of_le_one_left (Nat.cast_nonneg _) h1)
  rw [quantile_eq_interpolate_ranked top hNe h0 h1, hCount]
  apply interpolate_congr
  · exact ranked_append_replicate hTop (by omega)
  · intro hBetween
    have hLt := floor_lt_last h0 h1 hBetween
    exact ranked_append_replicate hTop (by omega)

theorem quantile_le_padded (h : values ≠ []) (hTop : ∀ x ∈ values, x ≤ top) (h0 : 0 ≤ q) (h1 : q ≤ 1) :
    quantile values q ≤ quantile (values ++ List.replicate n top) q := by
  have hPosition : (values.length - 1 : ℕ) ≤ values.length + n - 1 := by omega
  rw [quantile_eq_interpolate_ranked top h h0 h1, quantile_padded h hTop h0 h1]
  exact interpolate_mono (ranked_monotone hTop) (mul_nonneg h0 (Nat.cast_nonneg _))
    (mul_le_mul_of_nonneg_left (Nat.cast_le.mpr hPosition) h0)

/-- They leave a quantile as it is exactly when there are none, or no rank moves that is read. -/
theorem quantile_eq_padded_iff (h : values ≠ []) (hTop : ∀ x ∈ values, x ≤ top) (h0 : 0 < q) (h1 : q ≤ 1) :
    quantile values q = quantile (values ++ List.replicate n top) q ↔
      n = 0 ∨ ranked top values ⌊q * (values.length - 1 : ℕ)⌋₊ = ranked top values ⌈q * (values.length + n - 1 : ℕ)⌉₊ := by
  have hLength : 0 < values.length := List.length_pos_of_ne_nil h
  have hPosition : (values.length - 1 : ℕ) ≤ values.length + n - 1 := by omega
  have hSame : q * (values.length - 1 : ℕ) = q * (values.length + n - 1 : ℕ) ↔ n = 0 := by
    rw [mul_right_inj' h0.ne', Nat.cast_inj]
    omega
  rw [quantile_eq_interpolate_ranked top h h0.le h1, quantile_padded h hTop h0.le h1,
    interpolate_eq_iff (ranked_monotone hTop) (mul_nonneg h0.le (Nat.cast_nonneg _))
      (mul_le_mul_of_nonneg_left (Nat.cast_le.mpr hPosition) h0.le), hSame]

end Padding

theorem quantileLaws (h : values ≠ []) : QuantileLaws values where
  inBounds _ _ h1 := checkedQuantile_eq h1
  perm _ _ hPerm h0 h1 := quantile_perm h hPerm h0 h1
  position _ _ h0 hqq' h1 := quantile_mono h h0 hqq' h1
  entries _ _ hEntries h0 h1 := quantile_le_of_forall₂ h hEntries h0 h1
  least := quantile_zero h
  middle := quantile_half h
  greatest := quantile_one h

variable {metric : MetricSpec K} {runs : List (BagRunResult K)}

omit [IsStrictOrderedRing K] in
theorem under_nil (aggregator : Aggregator) : metric.under aggregator [] = metric.failValue := by
  simp [MetricSpec.under, aggregateMetric]

omit [IsStrictOrderedRing K] in
theorem under_eq (aggregator : Aggregator) (h : runs ≠ []) :
    metric.under aggregator runs = aggregate aggregator (runs.map metric.value) := by
  have hValues : runs.map metric.value ≠ [] := by simpa using h
  exact if_neg hValues

theorem aggregatorsOrdered : AggregatorsOrdered metric runs := by
  by_cases hRuns : runs = []
  · subst hRuns
    constructor <;> simp only [under_nil, le_refl]
  have hValues : runs.map metric.value ≠ [] := by simpa using hRuns
  have hMin : metric.under .min runs = quantile (runs.map metric.value) 0 :=
    (under_eq _ hRuns).trans (quantile_zero hValues).symm
  have hMedian : metric.under .median runs = quantile (runs.map metric.value) (1 / 2) :=
    (under_eq _ hRuns).trans (quantile_half hValues).symm
  have hQ75 : metric.under .q75 runs = quantile (runs.map metric.value) (3 / 4) := under_eq _ hRuns
  have hQ90 : metric.under .q90 runs = quantile (runs.map metric.value) (9 / 10) := under_eq _ hRuns
  have hMax : metric.under .max runs = quantile (runs.map metric.value) 1 :=
    (under_eq _ hRuns).trans (quantile_one hValues).symm
  constructor
  · rw [hMin, hMedian]
    exact quantile_mono hValues le_rfl (by norm_num) (by norm_num)
  · rw [hMedian, hQ75]
    exact quantile_mono hValues (by norm_num) (by norm_num) (by norm_num)
  · rw [hQ75, hQ90]
    exact quantile_mono hValues (by norm_num) (by norm_num) (by norm_num)
  · rw [hQ90, hMax]
    exact quantile_mono hValues (by norm_num) (by norm_num) le_rfl

end Positions

/-- The aggregator laws over the rationals. -/
theorem aggregator_laws :
    (∀ values : List ℚ, values ≠ [] → QuantileLaws values) ∧
      ∀ (metric : MetricSpec ℚ) (runs : List (BagRunResult ℚ)), AggregatorsOrdered metric runs :=
  ⟨fun _ h => quantileLaws h, fun _ _ => aggregatorsOrdered⟩

example : quantile [2, 8, 4, 6, (10 : ℚ)] (1 / 2) = median [2, 8, 4, 6, 10] := by decide +kernel

end RoveMapping.Tuner
