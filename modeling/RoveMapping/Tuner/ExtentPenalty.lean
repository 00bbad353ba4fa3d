import Mathlib.Tactic.Ring
import RoveMapping.Tuner.FailurePenalty

/-! # What a shorter path is worth

The penalty for an extent beyond the path is scaled by a ramp that grows from 5 m to 20 m of path.
On the ramp a shorter path lowers the scale as well, so it pays exactly when the scale falls faster
than the excess of the extent grows.
-/
namespace RoveMapping.Tuner
set_option autoImplicit false

/-- The score that a run would have with another path length. -/
def scoreWithPath (stats : TrajectoryStats ℚ) (path : ℚ) : ℚ :=
  driftPerPathWithExtentPenalty { stats with pathLengthM := path }

/-- Two path lengths for one drift ratio and extent, beyond the turns in place and below the extent. -/
structure UnderCount (stats : TrajectoryStats ℚ) (drift extent short long : ℚ) : Prop where
  ratio : stats.driftPerPath = some drift
  driftPos : 0 < drift
  wide : stats.cloudSpatialExtentM = some extent
  moves : 5 ≤ short
  shorter : short ≤ long
  belowExtent : long ≤ extent

/-- The shorter path is never rewarded. -/
def UnderCountNeverPays : Prop := ∀ stats drift extent short long,
  UnderCount stats drift extent short long → scoreWithPath stats long ≤ scoreWithPath stats short

/-- Beyond the ramp the shorter path never pays; on the ramp, and across its end, the excess has to
outgrow the scale. -/
def ExcessOutgrowsScale (extent short long : ℚ) : Prop :=
  short = long ∨ 20 ≤ short ∨ (long ≤ 20 ∧ 5 * extent ≤ short * long) ∨
    (short < 20 ∧ 20 < long ∧ 15 * short * (extent - long) ≤ (short - 5) * long * (extent - short))

/-- Fifteen times the scale of the penalty. -/
def ramp (path : ℚ) : ℚ := min 15 (path - 5)

section Scores

variable {stats : TrajectoryStats ℚ} {drift extent short long path : ℚ}

theorem scoreWithPath_eq (hDrift : stats.driftPerPath = some drift) (hPos : 0 < drift)
    (hExtent : stats.cloudSpatialExtentM = some extent) (hMoves : 5 ≤ path) (hBelow : path ≤ extent) :
    scoreWithPath stats path = drift * (1 + ramp path * (extent - path) / (15 * path)) := by
  have hPath : 0 < path := by linarith
  have hRatio : orElse (some drift) 1 = drift := if_neg hPos.ne'
  have hPathRead : orElse (some path) 0 = path := if_neg hPath.ne'
  have hExtentRead : orElse (some extent) 0 = extent := if_neg (hPath.trans_le hBelow).ne'
  have hFloor : max path (1 / 10) = path := max_eq_left (by linarith)
  have hScale : max 0 (min 1 ((path - 5) / 15)) = ramp path / 15 := by
    have hNonneg : 0 ≤ min 1 ((path - 5) / 15) := le_min zero_le_one (div_nonneg (by linarith) (by norm_num))
    have hFifteen : (15 / 15 : ℚ) = 1 := by norm_num
    rw [max_eq_right hNonneg, ramp, ← min_div_div_right (by norm_num), hFifteen]
  have hExcess : max 0 (extent / path - 1) = (extent - path) / path := by
    rw [sub_div, div_self hPath.ne', max_eq_right]
    rw [sub_nonneg, one_le_div hPath]
    exact hBelow
  simp only [scoreWithPath, driftPerPathWithExtentPenalty, Tuner.driftPerPath, extentPenalty, hDrift, hExtent, hRatio,
    hPathRead, hExtentRead, hFloor, hScale, hExcess]
  rw [div_mul_div_comm]

theorem score_le_iff (h : UnderCount stats drift extent short long) :
    scoreWithPath stats long ≤ scoreWithPath stats short ↔
      ramp long * (extent - long) * short ≤ ramp short * (extent - short) * long := by
  have hShort : 0 < short := by linarith [h.moves]
  have hLong : 0 < long := hShort.trans_le h.shorter
  rw [scoreWithPath_eq h.ratio h.driftPos h.wide h.moves (h.shorter.trans h.belowExtent),
    scoreWithPath_eq h.ratio h.driftPos h.wide (h.moves.trans h.shorter) h.belowExtent,
    mul_le_mul_iff_right₀ h.driftPos, add_le_add_iff_left, div_le_div_iff₀ (by positivity) (by positivity)]
  constructor
  · intro hLe
    linarith
  · intro hLe
    linarith

/-- The shorter path is not rewarded exactly when the excess outgrows the scale. -/
theorem under_count_never_pays_iff (h : UnderCount stats drift extent short long) :
    scoreWithPath stats long ≤ scoreWithPath stats short ↔ ExcessOutgrowsScale extent short long := by
  have hMoves := h.moves
  have hShorter := h.shorter
  have hBelow := h.belowExtent
  rw [score_le_iff h, ExcessOutgrowsScale]
  rcases le_or_gt 20 short with hBeyond | hRamp
  · -- both scales are 1
    have hShortRamp : ramp short = 15 := min_eq_left (by linarith)
    have hLongRamp : ramp long = 15 := min_eq_left (by linarith)
    rw [hShortRamp, hLongRamp]
    constructor
    · intro _
      exact .inr (.inl hBeyond)
    · intro _
      nlinarith
  · have hShortRamp : ramp short = short - 5 := min_eq_right (by linarith)
    rcases le_or_gt long 20 with hLong | hLong
    · have hLongRamp : ramp long = long - 5 := min_eq_right (by linarith)
      have hFactor : (short - 5) * (extent - short) * long - (long - 5) * (extent - long) * short =
          (long - short) * (short * long - 5 * extent) := by ring
      rw [hShortRamp, hLongRamp, ← sub_nonneg, hFactor]
      constructor
      · intro hNonneg
        rcases hShorter.eq_or_lt with hEq | hLt
        · exact .inl hEq
        · have hProduct := nonneg_of_mul_nonneg_right hNonneg (sub_pos.mpr hLt)
          exact .inr (.inr (.inl ⟨hLong, sub_nonneg.mp hProduct⟩))
      · rintro (rfl | hBeyond | ⟨_, hProduct⟩ | ⟨_, hAcross, _⟩)
        · rw [sub_self, zero_mul]
        · exact absurd hBeyond hRamp.not_ge
        · exact mul_nonneg (sub_nonneg.mpr hShorter) (sub_nonneg.mpr hProduct)
        · exact absurd hAcross hLong.not_gt
    · have hLongRamp : ramp long = 15 := min_eq_left (by linarith)
      rw [hShortRamp, hLongRamp]
      constructor
      · intro hLe
        exact .inr (.inr (.inr ⟨hRamp, hLong, by linarith⟩))
      · rintro (rfl | hBeyond | ⟨hShort, _⟩ | ⟨_, _, hLe⟩)
        · exact absurd hLong hRamp.not_gt
        · exact absurd hBeyond hRamp.not_ge
        · exact absurd hLong hShort.not_gt
        · linarith

end Scores

/-- A walk whose cloud is 20 m wide. -/
def wideWalk : TrajectoryStats ℚ := { walk 2 with cloudSpatialExtentM := some 20 }

theorem wideWalk_underCount {short long : ℚ} (hMoves : 5 ≤ short) (hShorter : short ≤ long) (hBelow : long ≤ 20) :
    UnderCount wideWalk (2 / 100) 20 short long where
  ratio := rfl
  driftPos := by norm_num
  wide := rfl
  moves := hMoves
  shorter := hShorter
  belowExtent := hBelow

theorem under_count_never_pays_iff_upper_ramp : scoreWithPath wideWalk 18 ≤ scoreWithPath wideWalk 12 :=
  (under_count_never_pays_iff (wideWalk_underCount (by norm_num) (by norm_num) (by norm_num))).mpr
    (.inr (.inr (.inl ⟨by norm_num, by norm_num⟩)))

theorem underCountNeverPays_five_metres : ¬ UnderCountNeverPays := by
  intro hClaim
  have h := hClaim wideWalk (2 / 100) 20 5 10 (wideWalk_underCount le_rfl (by norm_num) (by norm_num))
  exact absurd h (by decide +kernel)

end RoveMapping.Tuner
