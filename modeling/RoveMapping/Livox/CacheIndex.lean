import Mathlib
import RoveMapping.Library.Machine

/-! # The index of a lidar

`CacheIndex` names the 32 places of `lidars_` by the handles of the lidars. `GetFreeIndex` takes its lock twice, once
to look a handle up and once to take a free place, so that calls of several threads interleave between the two.
-/
namespace RoveMapping.Livox
set_option autoImplicit false

open Resumption

abbrev kMaxSourceLidar : ℕ := 32

def kLivoxLidarType : UInt8 := 8

abbrev Index := Fin kMaxSourceLidar

structure CacheIndex where
  mapIndex : String → Option Index
  indexCache : Index → Bool

namespace CacheIndex

def initial : CacheIndex := ⟨fun _ => none, fun _ => false⟩

def keyOf (handle : UInt32) : String := "livox_lidar_" ++ toString handle.toNat

def generateIndexKey (lidarType : UInt8) (handle : UInt32) : Option String :=
  if lidarType = kLivoxLidarType then some (keyOf handle) else none

variable (cache : CacheIndex)

def getIndex (lidarType : UInt8) (handle : UInt32) : Option Index :=
  (generateIndexKey lidarType handle).bind cache.mapIndex

def freeIndex? : Option Index := (List.finRange kMaxSourceLidar).find? fun i => !cache.indexCache i

def assign (key : String) (index : Index) : CacheIndex :=
  ⟨Function.update cache.mapIndex key (some index), Function.update cache.indexCache index true⟩

/-- `GetFreeIndex` where no other call comes between. -/
def getFreeIndex (lidarType : UInt8) (handle : UInt32) : Option Index × CacheIndex :=
  match generateIndexKey lidarType handle with
  | none => (none, cache)
  | some key =>
    match cache.mapIndex key with
    | some index => (some index, cache)
    | none =>
      match cache.freeIndex? with
      | some index => (some index, cache.assign key index)
      | none => (none, cache)

end CacheIndex

theorem keyOf_injective : Function.Injective CacheIndex.keyOf := by
  intro h h' hKey
  have hText : Nat.repr h.toNat = Nat.repr h'.toNat := (String.append_right_inj _).mp hKey
  exact UInt32.toNat_inj.mp (Nat.repr_injective hText)

/-- Where a call of `GetFreeIndex` stands: before its first lock, or between the two. -/
inductive Registering where
  | lookup (handle : UInt32)
  | allocate (handle : UInt32)
deriving DecidableEq

def Registering.handle : Registering → UInt32
  | .lookup handle | .allocate handle => handle

/-- Threads that call `GetFreeIndex`, always for a Livox lidar, and the answers so far, `none` where it returns -1. -/
structure Registry (ι : Type) where
  cache : CacheIndex
  calls : ι → Option Registering
  answers : List (UInt32 × Option Index)

inductive RegistryLabel (ι : Type) where
  | call (thread : ι) (handle : UInt32)
  | step (thread : ι)

namespace Registry

variable {ι : Type}

def initial : Registry ι := ⟨.initial, fun _ => none, []⟩

variable [DecidableEq ι]

def setCall (s : Registry ι) (i : ι) (call : Option Registering) : Registry ι :=
  { s with calls := Function.update s.calls i call }

def answer (s : Registry ι) (i : ι) (handle : UInt32) (index : Option Index) : Registry ι :=
  { s.setCall i none with answers := s.answers ++ [(handle, index)] }

/-- The second critical section of `GetFreeIndex` where it finds a free place. -/
def take (s : Registry ι) (i : ι) (handle : UInt32) (index : Index) : Registry ι :=
  { s.answer i handle (some index) with cache := s.cache.assign (CacheIndex.keyOf handle) index }

def next (s : Registry ι) : RegistryLabel ι → Option (Registry ι)
  | .call i handle =>
    match s.calls i with
    | none => some (s.setCall i (some (.lookup handle)))
    | some _ => none
  | .step i =>
    match s.calls i with
    | some (.lookup handle) =>
      match s.cache.mapIndex (CacheIndex.keyOf handle) with
      | some index => some (s.answer i handle (some index))
      | none => some (s.setCall i (some (.allocate handle)))
    | some (.allocate handle) =>
      match s.cache.freeIndex? with
      | some index => some (s.take i handle index)
      | none => some (s.answer i handle none)
    | none => none

/-- The moves of `next`, with the guard of each. -/
inductive Move (s : Registry ι) : RegistryLabel ι → Registry ι → Prop where
  | call {i handle} (hIdle : s.calls i = none) : Move s (.call i handle) (s.setCall i (some (.lookup handle)))
  | found {i handle index} (hCall : s.calls i = some (.lookup handle))
      (hMap : s.cache.mapIndex (CacheIndex.keyOf handle) = some index) :
      Move s (.step i) (s.answer i handle (some index))
  | missing {i handle} (hCall : s.calls i = some (.lookup handle))
      (hMap : s.cache.mapIndex (CacheIndex.keyOf handle) = none) :
      Move s (.step i) (s.setCall i (some (.allocate handle)))
  | taken {i handle index} (hCall : s.calls i = some (.allocate handle)) (hFree : s.cache.freeIndex? = some index) :
      Move s (.step i) (s.take i handle index)
  | refused {i handle} (hCall : s.calls i = some (.allocate handle)) (hFull : s.cache.freeIndex? = none) :
      Move s (.step i) (s.answer i handle none)

theorem move_of_next {s s' : Registry ι} {l : RegistryLabel ι} (h : s.next l = some s') : s.Move l s' := by
  cases l with
  | call i handle =>
    cases hCall : s.calls i with
    | none =>
      simp only [next, hCall, Option.some_inj] at h
      exact h ▸ .call hCall
    | some call => simp only [next, hCall, reduceCtorEq] at h
  | step i =>
    match hCall : s.calls i with
    | none => simp only [next, hCall, reduceCtorEq] at h
    | some (.lookup handle) =>
      cases hMap : s.cache.mapIndex (CacheIndex.keyOf handle) with
      | none =>
        simp only [next, hCall, hMap, Option.some_inj] at h
        exact h ▸ .missing hCall hMap
      | some index =>
        simp only [next, hCall, hMap, Option.some_inj] at h
        exact h ▸ .found hCall hMap
    | some (.allocate handle) =>
      cases hFree : s.cache.freeIndex? with
      | none =>
        simp only [next, hCall, hFree, Option.some_inj] at h
        exact h ▸ .refused hCall hFree
      | some index =>
        simp only [next, hCall, hFree, Option.some_inj] at h
        exact h ▸ .taken hCall hFree

end Registry

namespace CacheIndex

theorem free_of_freeIndex? {cache : CacheIndex} {index : Index} (h : cache.freeIndex? = some index) :
    cache.indexCache index = false := by
  have hFree := List.find?_some h
  simpa using hFree

theorem reserved_of_freeIndex? {cache : CacheIndex} (h : cache.freeIndex? = none) (index : Index) :
    cache.indexCache index = true := by
  have hFull := List.find?_eq_none.mp h index (List.mem_finRange index)
  simpa using hFull

theorem mapIndex_assign (cache : CacheIndex) (handle handle' : UInt32) (index : Index) :
    (cache.assign (keyOf handle) index).mapIndex (keyOf handle') =
      if handle' = handle then some index else cache.mapIndex (keyOf handle') := by
  simp only [assign, Function.update_apply, keyOf_injective.eq_iff]

theorem indexCache_assign (cache : CacheIndex) (key : String) (index index' : Index) :
    (cache.assign key index).indexCache index' = true ↔ index' = index ∨ cache.indexCache index' = true := by
  simp only [assign, Function.update_apply]
  split <;> simp_all

structure Ok (cache : CacheIndex) : Prop where
  reserved : ∀ key index, cache.mapIndex key = some index → cache.indexCache index = true
  distinct : ∀ key key' index, cache.mapIndex key = some index → cache.mapIndex key' = some index → key = key'

theorem ok_initial : initial.Ok := ⟨nofun, nofun⟩

section Assign

variable {cache : CacheIndex} {key : String} {index : Index}

theorem mapIndex_of_assign {key' : String} {index' : Index} (h : (cache.assign key index).mapIndex key' = some index') :
    key' = key ∧ index' = index ∨ cache.mapIndex key' = some index' := by
  simp only [assign, Function.update_apply] at h
  split at h
  · cases h
    exact .inl ⟨‹_›, rfl⟩
  · exact .inr h

theorem Ok.assign (h : cache.Ok) (hFree : cache.indexCache index = false) : (cache.assign key index).Ok where
  reserved key' index' hMap := by
    rw [indexCache_assign]
    rcases mapIndex_of_assign hMap with ⟨-, rfl⟩ | hOld
    · exact .inl rfl
    · exact .inr (h.reserved key' index' hOld)
  distinct key₁ key₂ index' h₁ h₂ := by
    have hFresh (key' : String) : cache.mapIndex key' ≠ some index := fun hMap => by
      rw [h.reserved key' index hMap] at hFree
      cases hFree
    rcases mapIndex_of_assign h₁ with ⟨rfl, rfl⟩ | hOld₁ <;> rcases mapIndex_of_assign h₂ with ⟨rfl, hEq⟩ | hOld₂
    · rfl
    · exact absurd hOld₂ (hFresh _)
    · exact absurd (hEq ▸ hOld₁) (hFresh _)
    · exact h.distinct key₁ key₂ index' hOld₁ hOld₂

end Assign

variable {cache : CacheIndex} (lidarType : UInt8) (handle : UInt32)

variable (cache) in
theorem getFreeIndex_cases : (cache.getFreeIndex lidarType handle).2 = cache ∨
    ∃ key index, cache.mapIndex key = none ∧ cache.indexCache index = false ∧
      (cache.getFreeIndex lidarType handle).2 = cache.assign key index := by
  rw [getFreeIndex]
  split
  · exact .inl rfl
  · split
    · exact .inl rfl
    · split
      · exact .inr ⟨_, _, ‹_›, free_of_freeIndex? ‹_›, rfl⟩
      · exact .inl rfl

theorem Ok.getFreeIndex (h : cache.Ok) : (cache.getFreeIndex lidarType handle).2.Ok := by
  rcases getFreeIndex_cases cache lidarType handle with hSame | ⟨key, index, -, hFree, hNew⟩
  · rwa [hSame]
  · rw [hNew]
    exact h.assign hFree

/-- A lidar that has its index keeps it. -/
theorem mapIndex_getFreeIndex {key : String} {index : Index} (h : cache.mapIndex key = some index) :
    (cache.getFreeIndex lidarType handle).2.mapIndex key = some index := by
  rcases getFreeIndex_cases cache lidarType handle with hSame | ⟨key', index', hNone, -, hNew⟩
  · rwa [hSame]
  · have hNe : key ≠ key' := by
      rintro rfl
      rw [h] at hNone
      cases hNone
    simp only [hNew, assign, Function.update_of_ne hNe]
    exact h

end CacheIndex

namespace Registry

variable {ι : Type}

/-- A handle has an index when the map or an answer says so. -/
def Holds (s : Registry ι) (handle : UInt32) (index : Index) : Prop :=
  s.cache.mapIndex (CacheIndex.keyOf handle) = some index ∨ (handle, some index) ∈ s.answers

structure Inv (s : Registry ι) : Prop where
  reserved : ∀ handle index, s.Holds handle index → s.cache.indexCache index = true
  distinct : ∀ handle handle' index, s.Holds handle index → s.Holds handle' index → handle = handle'

theorem inv_initial : (initial : Registry ι).Inv where
  reserved _ _ h := by rcases h with h | h <;> cases h
  distinct _ _ _ h := by rcases h with h | h <;> cases h

variable [DecidableEq ι]

theorem mem_answers_answer {s : Registry ι} {i : ι} {answered handle : UInt32} {given index : Option Index} :
    (handle, index) ∈ (s.answer i answered given).answers ↔
      (handle, index) ∈ s.answers ∨ handle = answered ∧ index = given := by
  simp [answer, setCall]

theorem mem_answers_take {s : Registry ι} {i : ι} {answered handle : UInt32} {given : Index} {index : Option Index} :
    (handle, index) ∈ (s.take i answered given).answers ↔
      (handle, index) ∈ s.answers ∨ handle = answered ∧ index = some given := by
  simp [take, answer, setCall]

theorem mapIndex_take (s : Registry ι) (i : ι) (handle handle' : UInt32) (index : Index) :
    (s.take i handle index).cache.mapIndex (CacheIndex.keyOf handle') =
      if handle' = handle then some index else s.cache.mapIndex (CacheIndex.keyOf handle') :=
  s.cache.mapIndex_assign handle handle' index

omit [DecidableEq ι] in
theorem Inv.of_holds {s s' : Registry ι} (h : s.Inv) (hCache : s'.cache = s.cache)
    (hHolds : ∀ handle index, s'.Holds handle index → s.Holds handle index) : s'.Inv where
  reserved handle index hIndex := hCache ▸ h.reserved handle index (hHolds handle index hIndex)
  distinct handle handle' index hIndex hIndex' := h.distinct handle handle' index (hHolds _ _ hIndex) (hHolds _ _ hIndex')

theorem Inv.next {s s' : Registry ι} {l : RegistryLabel ι} (h : s.Inv) (hNext : s.next l = some s') : s'.Inv := by
  cases move_of_next hNext with
  | call hIdle => exact h.of_holds rfl fun _ _ hIndex => hIndex
  | missing hCall hMap => exact h.of_holds rfl fun _ _ hIndex => hIndex
  | @found i handle index hCall hMap =>
    refine h.of_holds rfl fun handle' index' hIndex => ?_
    rcases hIndex with hIndex | hIndex
    · exact .inl hIndex
    · rcases mem_answers_answer.mp hIndex with hOld | ⟨rfl, hNew⟩
      · exact .inr hOld
      · cases hNew
        exact .inl hMap
  | refused hCall hFull =>
    refine h.of_holds rfl fun handle' index' hIndex => ?_
    rcases hIndex with hIndex | hIndex
    · exact .inl hIndex
    · rcases mem_answers_answer.mp hIndex with hOld | ⟨-, hNew⟩
      · exact .inr hOld
      · cases hNew
  | @taken i handle index hCall hFree =>
    have hUnused := CacheIndex.free_of_freeIndex? hFree
    have hCases : ∀ handle' index', (s.take i handle index).Holds handle' index' →
        handle' = handle ∧ index' = index ∨ s.Holds handle' index' := by
      rintro handle' index' (hMap | hAnswer)
      · rw [mapIndex_take] at hMap
        split at hMap
        · cases hMap
          exact .inl ⟨‹_›, rfl⟩
        · exact .inr (.inl hMap)
      · rcases mem_answers_take.mp hAnswer with hOld | ⟨rfl, hNew⟩
        · exact .inr (.inr hOld)
        · cases hNew
          exact .inl ⟨rfl, rfl⟩
    -- the index was free, so no handle held it before
    have hFresh : ∀ handle', ¬s.Holds handle' index := fun handle' hHolds => by
      rw [h.reserved handle' index hHolds] at hUnused
      cases hUnused
    refine ⟨fun handle' index' hIndex => ?_, fun handle₁ handle₂ index' h₁ h₂ => ?_⟩
    · refine (CacheIndex.indexCache_assign ..).mpr ?_
      rcases hCases _ _ hIndex with ⟨-, rfl⟩ | hOld
      · exact .inl rfl
      · exact .inr (h.reserved _ _ hOld)
    · rcases hCases _ _ h₁ with ⟨rfl, rfl⟩ | hOld₁ <;> rcases hCases _ _ h₂ with ⟨rfl, hEq⟩ | hOld₂
      · rfl
      · exact absurd hOld₂ (hFresh _)
      · exact absurd (hEq ▸ hOld₁) (hFresh _)
      · exact h.distinct _ _ _ hOld₁ hOld₂

theorem Inv.reaches {ok : Registry ι → RegistryLabel ι → Prop} {s s' : Registry ι} (h : s.Inv)
    (hRun : Reaches Registry.next ok s s') : s'.Inv := by
  induction hRun with
  | refl => exact h
  | tail _ hStep ih =>
    obtain ⟨l, -, hNext⟩ := hStep
    exact ih.next hNext

/-- No thread calls for a handle that another call is still about. -/
def NoOverlap (s : Registry ι) : RegistryLabel ι → Prop
  | .call _ handle => ∀ i, ∀ call ∈ s.calls i, call.handle ≠ handle
  | .step _ => True

instance [Fintype ι] (s : Registry ι) : ∀ l, Decidable (NoOverlap s l)
  | .call _ handle => inferInstanceAs (Decidable (∀ i, ∀ call ∈ s.calls i, call.handle ≠ handle))
  | .step _ => inferInstanceAs (Decidable True)

structure Exact (s : Registry ι) : Prop where
  exclusive : ∀ i j call call', s.calls i = some call → s.calls j = some call' → call.handle = call'.handle → i = j
  pending : ∀ i handle, s.calls i = some (.allocate handle) → s.cache.mapIndex (CacheIndex.keyOf handle) = none
  mapped : ∀ handle index, s.cache.mapIndex (CacheIndex.keyOf handle) = some index ↔ (handle, some index) ∈ s.answers
  reserved : ∀ index, s.cache.indexCache index = true ↔ ∃ handle, (handle, some index) ∈ s.answers
  refused : ∀ handle, (handle, none) ∈ s.answers → ∀ index, ∃ handle' ≠ handle, (handle', some index) ∈ s.answers

omit [DecidableEq ι] in
theorem exact_initial : (initial : Registry ι).Exact where
  exclusive _ _ _ _ h := by cases h
  pending _ _ h := by cases h
  mapped _ _ := by simp [initial, CacheIndex.initial]
  reserved _ := by simp [initial, CacheIndex.initial]
  refused _ h := by cases h

/-- Where a call ends or moves on, the calls stay about different handles. -/
theorem Exact.exclusive_update {s : Registry ι} (h : s.Exact) {i : ι} {call : Option Registering}
    (hCall : ∀ new, call = some new → ∃ old, s.calls i = some old ∧ old.handle = new.handle) (j k : ι)
    (c c' : Registering) (hj : Function.update s.calls i call j = some c) (hk : Function.update s.calls i call k = some c')
    (hHandle : c.handle = c'.handle) : j = k := by
  have hOld : ∀ {j c}, Function.update s.calls i call j = some c → ∃ old, s.calls j = some old ∧ old.handle = c.handle := by
    intro j c hj
    by_cases hji : j = i
    · subst hji
      rw [Function.update_self] at hj
      exact hCall c hj
    · rw [Function.update_of_ne hji] at hj
      exact ⟨c, hj, rfl⟩
  obtain ⟨old, hOldJ, hOldHandle⟩ := hOld hj
  obtain ⟨old', hOldK, hOldHandle'⟩ := hOld hk
  exact h.exclusive j k old old' hOldJ hOldK (hOldHandle.trans (hHandle.trans hOldHandle'.symm))

theorem calls_of_update_none {calls : ι → Option Registering} {i j : ι} {call : Registering}
    (h : Function.update calls i none j = some call) : j ≠ i ∧ calls j = some call := by
  rw [Function.update_apply] at h
  split at h
  · cases h
  · exact ⟨‹_›, h⟩

theorem Exact.next {s s' : Registry ι} {l : RegistryLabel ι} (h : s.Exact) (hOk : s.NoOverlap l)
    (hNext : s.next l = some s') : s'.Exact := by
  cases move_of_next hNext with
  | @call i handle hIdle =>
    refine ⟨fun j k c c' hj hk hHandle => ?_, fun j handle' hj => ?_, h.mapped, h.reserved, h.refused⟩
    · simp only [setCall, Function.update_apply] at hj hk
      split at hj <;> split at hk
      · rw [‹j = i›, ‹k = i›]
      · cases hj
        exact absurd hHandle.symm (hOk k c' hk)
      · cases hk
        exact absurd hHandle (hOk j c hj)
      · exact h.exclusive j k c c' hj hk hHandle
    · simp only [setCall, Function.update_apply] at hj
      split at hj
      · cases hj
      · exact h.pending j handle' hj
  | @found i handle index hCall hMap =>
    have hMem : ∀ handle' index', (handle', index') ∈ (s.answer i handle (some index)).answers ↔
        (handle', index') ∈ s.answers := by
      intro handle' index'
      rw [mem_answers_answer]
      refine ⟨fun hAnswer => ?_, .inl⟩
      rcases hAnswer with hOld | ⟨rfl, rfl⟩
      · exact hOld
      · exact (h.mapped handle' index).mp hMap
    refine ⟨h.exclusive_update nofun, fun j handle' hj => ?_, fun handle' index' => ?_, fun index' => ?_, fun handle' hRefused => ?_⟩
    · exact h.pending j handle' (calls_of_update_none hj).2
    · rw [hMem]
      exact h.mapped handle' index'
    · simp only [hMem]
      exact h.reserved index'
    · simp only [hMem] at hRefused ⊢
      exact h.refused handle' hRefused
  | @missing i handle hCall hMap =>
    refine ⟨h.exclusive_update ?_, fun j handle' hj => ?_, h.mapped, h.reserved, h.refused⟩
    · rintro new ⟨⟩
      exact ⟨_, hCall, rfl⟩
    · simp only [setCall, Function.update_apply] at hj
      split at hj
      · cases hj
        exact hMap
      · exact h.pending j handle' hj
  | @taken i handle index hCall hFree =>
    have hUnused := CacheIndex.free_of_freeIndex? hFree
    have hNone := h.pending i handle hCall
    refine ⟨h.exclusive_update nofun, fun j handle' hj => ?_, fun handle' index' => ?_, fun index' => ?_, fun handle' hRefused => ?_⟩
    · obtain ⟨hji, hj'⟩ := calls_of_update_none hj
      have hNe : handle' ≠ handle := fun hHandle => hji (h.exclusive j i _ _ hj' hCall hHandle)
      rw [mapIndex_take, if_neg hNe]
      exact h.pending j handle' hj'
    · rw [mapIndex_take, mem_answers_take, ← h.mapped]
      split
      · rename_i hHandle
        rw [hHandle, hNone]
        simp [eq_comm]
      · rename_i hHandle
        simp [hHandle]
    · rw [show (s.take i handle index).cache = s.cache.assign (CacheIndex.keyOf handle) index from rfl,
        CacheIndex.indexCache_assign, h.reserved]
      simp only [mem_answers_take, Option.some_inj]
      constructor
      · rintro (rfl | ⟨handle', hOld⟩)
        · exact ⟨handle, .inr ⟨rfl, rfl⟩⟩
        · exact ⟨handle', .inl hOld⟩
      · rintro ⟨handle', hOld | ⟨-, rfl⟩⟩
        · exact .inr ⟨handle', hOld⟩
        · exact .inl rfl
    · rcases mem_answers_take.mp hRefused with hOld | ⟨-, hNew⟩
      · -- a refusal means that no place was left, so this one was not free
        obtain ⟨other, -, hOther⟩ := h.refused handle' hOld index
        rw [(h.reserved index).mpr ⟨other, hOther⟩] at hUnused
        cases hUnused
      · cases hNew
  | @refused i handle hCall hFull =>
    have hNone := h.pending i handle hCall
    have hMem : ∀ handle' index', (handle', some index') ∈ (s.answer i handle none).answers ↔
        (handle', some index') ∈ s.answers := by
      intro handle' index'
      rw [mem_answers_answer]
      simp
    refine ⟨h.exclusive_update nofun, fun j handle' hj => ?_, fun handle' index' => ?_, fun index' => ?_, fun handle' hRefused => ?_⟩
    · exact h.pending j handle' (calls_of_update_none hj).2
    · rw [hMem]
      exact h.mapped handle' index'
    · simp only [hMem]
      exact h.reserved index'
    · simp only [hMem]
      rcases mem_answers_answer.mp hRefused with hOld | ⟨rfl, -⟩
      · exact h.refused handle' hOld
      · intro index'
        obtain ⟨other, hOther⟩ := (h.reserved index').mp (CacheIndex.reserved_of_freeIndex? hFull index')
        refine ⟨other, fun hEq => ?_, hOther⟩
        rw [← hEq, (h.mapped other index').mpr hOther] at hNone
        cases hNone

theorem Exact.reaches {s s' : Registry ι} (h : s.Exact) (hRun : Reaches Registry.next NoOverlap s s') : s'.Exact := by
  induction hRun with
  | refl => exact h
  | tail _ hStep ih =>
    obtain ⟨l, hOk, hNext⟩ := hStep
    exact ih.next hOk hNext

end Registry

/-- However the two critical sections of any number of calls interleave, no index is given to two lidars. -/
theorem indices_distinct {ι : Type} [DecidableEq ι] {s : Registry ι}
    (hRun : Reaches Registry.next (fun _ _ => True) .initial s) {handle handle' : UInt32} {index : Index}
    (h : (handle, some index) ∈ s.answers) (h' : (handle', some index) ∈ s.answers) : handle = handle' :=
  (Registry.inv_initial.reaches hRun).distinct handle handle' index (.inr h) (.inr h')

/-- Two threads that register one lidar at the same time take two indices for it, but no other lidar gets either. -/
theorem indices_distinct_twice : ∃ s : Registry (Fin 2), Reaches Registry.next (fun _ _ => True) .initial s ∧
    s.answers = [(7, some 0), (7, some 1)] ∧ ∀ handle, (handle, some 1) ∈ s.answers → handle = 7 := by
  obtain ⟨s, hRun, hAnswers⟩ : ∃ s : Registry (Fin 2), Reaches Registry.next (fun _ _ => True) .initial s ∧
      s.answers = [(7, some 0), (7, some 1)] :=
    Reaches.of_observed [.call 0 7, .call 1 7, .step 0, .step 1, .step 0, .step 1] Registry.answers (by decide +kernel)
  have hMem : (7, some 1) ∈ s.answers := by simp [hAnswers]
  exact ⟨s, hRun, hAnswers, fun _ h => indices_distinct hRun h hMem⟩

/-- Where no two calls are about one handle at the same time, a lidar keeps its index, and one is refused only when
all indices are with other lidars. -/
theorem indices_exact {ι : Type} [DecidableEq ι] {s : Registry ι} (hRun : Reaches Registry.next Registry.NoOverlap .initial s) :
    (∀ handle handle' index index', (handle, some index) ∈ s.answers → (handle', some index') ∈ s.answers →
      (index = index' ↔ handle = handle')) ∧
    ∀ handle, (handle, none) ∈ s.answers → ∀ index, ∃ handle' ≠ handle, (handle', some index) ∈ s.answers := by
  have hExact := Registry.exact_initial.reaches hRun
  refine ⟨fun handle handle' index index' h h' => ⟨?_, ?_⟩, hExact.refused⟩
  · rintro rfl
    exact (Registry.inv_initial.reaches hRun).distinct handle handle' index (.inr h) (.inr h')
  · rintro rfl
    rw [← hExact.mapped] at h h'
    exact Option.some_inj.mp (h.symm.trans h')

theorem indices_exact_twice : ∃ s : Registry (Fin 2), Reaches Registry.next Registry.NoOverlap .initial s ∧
    s.answers = [(8, some 0), (7, some 1), (7, some 1)] ∧ ∀ index, (7, some index) ∈ s.answers → index = 1 := by
  obtain ⟨s, hRun, hAnswers⟩ : ∃ s : Registry (Fin 2), Reaches Registry.next Registry.NoOverlap .initial s ∧
      s.answers = [(8, some 0), (7, some 1), (7, some 1)] :=
    Reaches.of_observed [.call 0 7, .call 1 8, .step 0, .step 1, .step 1, .step 0, .call 1 7, .step 1] Registry.answers
      (by decide +kernel)
  have hMem : (7, some 1) ∈ s.answers := by simp [hAnswers]
  exact ⟨s, hRun, hAnswers, fun index h => ((indices_exact hRun).1 7 7 index 1 h hMem).mpr rfl⟩

end RoveMapping.Livox
