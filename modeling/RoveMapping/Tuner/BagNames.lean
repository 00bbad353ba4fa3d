import RoveMapping.Library.Numbering
import RoveMapping.Tuner.TrialWorld

/-! # The directories of the bags

A repeated stem gets a counter, but the name with the counter is not looked up: it may be the
stem of another bag. The stems `.` and the empty one both lead to the directory of the trial itself.
-/
namespace RoveMapping.Tuner.TrialRunner
open Numbering PosixPath
set_option autoImplicit false

/-- The names that the bags of a trial in `dir` are given, and the places they lead to. -/
def DistinctDirectories (dir : Path) (bags : List String) : Prop :=
  (assignNames [] bags).Nodup ∧ ((assignNames [] bags).map fun name => (dir.child name).place).Nodup

/-- No bag is called like the counted repeat of another one's stem. -/
def NoStemIsARepeat (bags : List String) : Prop :=
  ∀ name count, 0 < count → count < (bags.map bagName).count name → s!"{name}_{count}" ∉ bags.map bagName

/-- The empty stem and `.` do not both occur; nor, for a trial in `/`, one of them beside `..`. -/
def NoSharedPlace (dir : Path) (bags : List String) : Prop :=
  ¬ ("" ∈ bags.map bagName ∧ "." ∈ bags.map bagName) ∧
    (dir.place = [] → ".." ∈ bags.map bagName → "" ∉ bags.map bagName ∧ "." ∉ bags.map bagName)

def numberedName (name : String) (count : ℕ) : String := if count = 0 then name else s!"{name}_{count}"

theorem numberedName_zero (name : String) : numberedName name 0 = name := rfl

theorem numberedName_pos (name : String) {count : ℕ} (h : 0 < count) : numberedName name count = s!"{name}_{count}" :=
  if_neg h.ne'

theorem toList_numberedName_succ (name : String) (count : ℕ) :
    (numberedName name (count + 1)).toList = name.toList ++ '_' :: Nat.toDigits 10 (count + 1) := by
  rw [numberedName_pos name (Nat.succ_pos count)]
  simp [toString, Nat.toList_repr]

/-- What follows the last underscore determines what is before it. -/
theorem eq_of_underscore {before before' digits digits' : List Char} (hDigits : '_' ∉ digits) (hDigits' : '_' ∉ digits')
    (h : before ++ '_' :: digits = before' ++ '_' :: digits') : before = before' ∧ digits = digits' := by
  rcases List.append_eq_append_iff.mp h with ⟨between, hBefore, hRest⟩ | ⟨between, hBefore, hRest⟩
  · cases between with
    | nil => exact ⟨by simpa using hBefore.symm, (List.cons.inj hRest).2⟩
    | cons c between =>
      rw [List.cons_append] at hRest
      exact absurd ((List.cons.inj hRest).2 ▸ by simp) hDigits
  · cases between with
    | nil => exact ⟨by simpa using hBefore, (List.cons.inj hRest).2.symm⟩
    | cons c between =>
      rw [List.cons_append] at hRest
      exact absurd ((List.cons.inj hRest).2 ▸ by simp) hDigits'

theorem suffixing_numberedName : Suffixing numberedName where
  first := numberedName_zero
  unique x y k l h := by
    have hChars := congrArg String.toList h
    rw [toList_numberedName_succ, toList_numberedName_succ] at hChars
    obtain ⟨hNames, hDigits⟩ := eq_of_underscore Nat.underscore_not_in_toDigits Nat.underscore_not_in_toDigits hChars
    have hCounts := congrArg (fun digits => Nat.ofDigitChars 10 digits 0) hDigits
    simp only [Nat.ofDigitChars_ten_toDigits] at hCounts
    exact ⟨String.toList_inj.mp hNames, by omega⟩
  changes x k h := by
    have hLength := congrArg (fun s => s.toList.length) h
    simp only [toList_numberedName_succ, List.length_append, List.length_cons] at hLength
    omega

/-- The counters of the loop: one less than how often a name has been met. -/
def Tracks (used : List (String × ℕ)) (seen : List String) : Prop :=
  ∀ name, used.lookup name = if seen.count name = 0 then none else some (seen.count name - 1)

theorem Tracks.cons {used : List (String × ℕ)} {seen : List String} (h : Tracks used seen) (name : String) :
    Tracks ((name, seen.count name) :: used) (name :: seen) := by
  intro other
  rw [List.lookup_cons]
  by_cases hName : other = name
  · subst hName
    simp
  · rw [List.count_cons_of_ne (Ne.symm hName), beq_eq_false_iff_ne.mpr hName]
    exact h other

theorem assignNames_eq_occurrences {used : List (String × ℕ)} {seen : List String} (h : Tracks used seen) (bags : List String) :
    assignNames used bags = (occurrences seen (bags.map bagName)).map fun entry => numberedName entry.1 entry.2 := by
  induction bags generalizing used seen with
  | nil => rfl
  | cons bag rest ih =>
    have hMet := h (bagName bag)
    have hRest := ih (h.cons (bagName bag))
    rw [assignNames, List.map_cons, occurrences, List.map_cons, ← hRest]
    by_cases hFirst : seen.count (bagName bag) = 0
    · rw [if_pos hFirst] at hMet
      simp only [hMet, hFirst, numberedName_zero]
    · obtain ⟨count, hCount⟩ := Nat.exists_eq_succ_of_ne_zero hFirst
      rw [if_neg hFirst, hCount] at hMet
      simp only [hMet, hCount, Nat.succ_eq_add_one, Nat.add_sub_cancel]
      rw [numberedName_pos _ (Nat.succ_pos count)]

theorem assignNames_eq (bags : List String) : assignNames [] bags = number numberedName (bags.map bagName) :=
  assignNames_eq_occurrences (fun name => by simp) bags

theorem underscore_of_numberedName_succ (name : String) (count : ℕ) : '_' ∈ (numberedName name (count + 1)).toList := by
  rw [toList_numberedName_succ]
  simp

theorem mem_assignNames_iff {name : String} (hPlain : '_' ∉ name.toList) (bags : List String) :
    name ∈ assignNames [] bags ↔ name ∈ bags.map bagName := by
  rw [assignNames_eq]
  apply mem_number_iff suffixing_numberedName
  rintro other count rfl
  exact hPlain (underscore_of_numberedName_succ other count)

theorem nodup_assignNames_iff (bags : List String) : (assignNames [] bags).Nodup ↔ NoStemIsARepeat bags := by
  rw [assignNames_eq, nodup_number_iff suffixing_numberedName]
  constructor
  · intro h name count hPos hCount
    rw [← numberedName_pos name hPos]
    exact h name count hPos hCount
  · intro h name count hPos hCount
    rw [numberedName_pos name hPos]
    exact h name count hPos hCount

/-- Different names lead to different places unless two of them lead to that of the trial. -/
theorem nodup_places_iff {dir : Path} {names : List String} (hNodup : names.Nodup) :
    (names.map fun name => (dir.child name).place).Nodup ↔ ¬ ("" ∈ names ∧ "." ∈ names) ∧
      (dir.place = [] → ".." ∈ names → "" ∉ names ∧ "." ∉ names) := by
  simp only [place_child]
  rw [List.nodup_map_iff_inj_on hNodup]
  constructor
  · intro hInj
    have hApart : ∀ name ∈ names, ∀ name' ∈ names, name ≠ name' → ¬ enter dir.place name = enter dir.place name' :=
      fun name hName name' hName' hNe hEq => hNe (hInj name hName name' hName' hEq)
    refine ⟨?_, ?_⟩
    · rintro ⟨hEmpty, hDot⟩
      exact hApart _ hEmpty _ hDot (by decide) ((enter_eq_iff (by decide)).mpr (.inl ⟨.inl rfl, .inr rfl⟩))
    · intro hRoot hUp
      refine ⟨fun hEmpty => ?_, fun hDot => ?_⟩
      · exact hApart _ hEmpty _ hUp (by decide) ((enter_eq_iff (by decide)).mpr (.inr ⟨hRoot, .inl ⟨.inl rfl, rfl⟩⟩))
      · exact hApart _ hDot _ hUp (by decide) ((enter_eq_iff (by decide)).mpr (.inr ⟨hRoot, .inl ⟨.inr rfl, rfl⟩⟩))
  · rintro ⟨hBoth, hRoot⟩ name hName name' hName' hEq
    by_contra hNe
    rcases (enter_eq_iff hNe).mp hEq with ⟨rfl | rfl, rfl | rfl⟩ | ⟨hSlash, ⟨hHere, rfl⟩ | ⟨rfl, hHere⟩⟩
    · exact hNe rfl
    · exact hBoth ⟨hName, hName'⟩
    · exact hBoth ⟨hName', hName⟩
    · exact hNe rfl
    · obtain ⟨hEmpty, hDot⟩ := hRoot hSlash hName'
      rcases hHere with rfl | rfl
      · exact hEmpty hName
      · exact hDot hName
    · obtain ⟨hEmpty, hDot⟩ := hRoot hSlash hName
      rcases hHere with rfl | rfl
      · exact hEmpty hName'
      · exact hDot hName'

/-- The bags get distinct directories exactly when no stem is the counted repeat of another and no two
lead to the directory of the trial. -/
theorem distinct_directories_iff (dir : Path) (bags : List String) :
    DistinctDirectories dir bags ↔ NoStemIsARepeat bags ∧ NoSharedPlace dir bags := by
  unfold DistinctDirectories NoSharedPlace
  rw [← nodup_assignNames_iff]
  apply and_congr_right
  intro hNodup
  rw [nodup_places_iff hNodup, mem_assignNames_iff (by decide), mem_assignNames_iff (by decide), mem_assignNames_iff (by decide)]

theorem distinctDirectories_three_runs : ¬ ∀ dir bags, DistinctDirectories dir bags := by
  intro hClaim
  have hNodup := (hClaim ⟨"/", [], ["data", "trial_0"]⟩ ["/monday/run", "/tuesday/run", "/monday/run_1"]).1
  exact absurd hNodup (by decide +kernel)

end RoveMapping.Tuner.TrialRunner
