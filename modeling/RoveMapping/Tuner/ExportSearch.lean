import RoveMapping.Tuner.BagRun

/-! # The search for the exported trajectory

The exporter's file goes by different names, and the first that is there is taken, whoever has put it there.
-/
namespace RoveMapping.Tuner.TrialRunner
open PosixPath
set_option autoImplicit false

namespace World

/-- What `_find_export_output` finds. -/
def found (w : World) (place : Place) : Option String :=
  if w.exists? place "trajectory_poses.txt" then some "trajectory_poses.txt"
  else if w.exists? place "trajectory.txt" then some "trajectory.txt"
  else (w.candidates place).head?

variable {w w' : World} {place : Place} {name : String}

theorem mem_entries {entries : List (String × Content)} : name ∈ entries.map (·.1) ↔ (entries.lookup name).isSome := by
  induction entries with
  | nil => simp
  | cons entry rest ih =>
    obtain ⟨first, content⟩ := entry
    rw [List.map_cons, List.mem_cons, List.lookup_cons, ih]
    by_cases hFirst : name = first
    · simp [hFirst]
    · simp [hFirst, beq_eq_false_iff_ne.mpr hFirst]

theorem mem_candidates : name ∈ w.candidates place ↔ posesTxt name = true ∧ w.exists? place name = true := by
  rw [candidates, List.mem_insertionSort, List.mem_filter, List.mem_dedup, List.mem_append, mem_entries, mem_subdirs,
    exists?, Bool.or_eq_true, decide_eq_true_eq, and_comm]
  rfl

theorem head_candidates (h : (w.candidates place).head? = some name) :
    name ∈ w.candidates place ∧ ∀ other ∈ w.candidates place, name ≤ other := by
  have hSorted : (w.candidates place).Pairwise (· ≤ ·) := List.pairwise_insertionSort _ _
  cases hList : w.candidates place with
  | nil => simp [hList] at h
  | cons first rest =>
    rw [hList] at h hSorted
    cases h
    refine ⟨List.mem_cons_self, fun other hOther => ?_⟩
    rcases List.mem_cons.mp hOther with rfl | hRest
    · exact le_rfl
    · exact (List.pairwise_cons.mp hSorted).1 other hRest

theorem exists_of_found (h : w.found place = some name) : exportName name = true ∧ w.exists? place name = true := by
  unfold found at h
  split at h
  · cases h
    exact ⟨by decide, ‹_›⟩
  split at h
  · cases h
    exact ⟨by decide, ‹_›⟩
  · obtain ⟨hPoses, hExists⟩ := mem_candidates.mp (head_candidates h).1
    exact ⟨by simp [exportName, hPoses], hExists⟩

/-- What is found among more files was found before, if it was there. -/
theorem found_mono (hMore : ∀ other, exportName other = true → w.exists? place other = true → w'.exists? place other = true)
    (hFound : w'.found place = some name) (hHere : w.exists? place name = true) : w.found place = some name := by
  unfold found at hFound
  split at hFound
  · cases hFound
    rw [found, if_pos hHere]
  rename_i hPoses
  have hPoses' : ¬w.exists? place "trajectory_poses.txt" = true := fun h => hPoses (hMore _ (by decide) h)
  split at hFound
  · cases hFound
    rw [found, if_neg hPoses', if_pos hHere]
  rename_i hPlain
  have hPlain' : ¬w.exists? place "trajectory.txt" = true := fun h => hPlain (hMore _ (by decide) h)
  rw [found, if_neg hPoses', if_neg hPlain']
  obtain ⟨hMem, hFirst⟩ := head_candidates hFound
  have hHere' : name ∈ w.candidates place := mem_candidates.mpr ⟨(mem_candidates.mp hMem).1, hHere⟩
  cases hHead : (w.candidates place).head? with
  | none => simp [List.head?_eq_none_iff.mp hHead] at hHere'
  | some first =>
    obtain ⟨hFirstMem, hLeast⟩ := head_candidates hHead
    obtain ⟨hFirstPoses, hFirstExists⟩ := mem_candidates.mp hFirstMem
    have hExported : exportName first = true := by simp [exportName, hFirstPoses]
    have hLe : name ≤ first := hFirst first (mem_candidates.mpr ⟨hFirstPoses, hMore first hExported hFirstExists⟩)
    rw [le_antisymm hLe (hLeast name hHere')]

theorem found_congr (hSame : ∀ other, exportName other = true → w'.exists? place other = w.exists? place other)
    (hFound : w.found place = some name) : w'.found place = some name := by
  obtain ⟨hName, hExists⟩ := exists_of_found hFound
  exact found_mono (fun other hOther h => hSame other hOther ▸ h) hFound ((hSame name hName).trans hExists)

end World
end RoveMapping.Tuner.TrialRunner
