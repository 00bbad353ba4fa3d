import Mathlib.Data.List.AList
import RoveMapping.ColorMesh.Poses
import RoveMapping.Library.Ancestry
import RoveMapping.Library.NearestEven

/-! # The kinematic chain

`parse_urdf_chain` and `compose_to_root`. Numbers are exact, and `cos`, `sin` and what `float` reads are
parameters; the walk up the chain is also looked at with products that are rounded to doubles.
-/
namespace RoveMapping.ColorMesh
open Ancestry Fallible
open scoped Literals
set_option autoImplicit false

/-- A link attribute, which is `None` where it is missing. -/
abbrev Link := Option String

/-- The dict of `parse_urdf_chain`: for each child its parent and `T_parent_child`. -/
abbrev ChainOf (T : Type) := AList fun _ : Link => Link × T

abbrev Chain (K : Type) := ChainOf (Transform K)

section Model

variable {K : Type} [Field K]

def rpyToR (cos sin : K → K) (roll pitch yaw : K) : Rotation K :=
  let Rx : Rotation K := !![1, 0, 0; 0, cos roll, -sin roll; 0, sin roll, cos roll]
  let Ry : Rotation K := !![cos pitch, 0, sin pitch; 0, 1, 0; -sin pitch, 0, cos pitch]
  let Rz : Rotation K := !![cos yaw, -sin yaw, 0; sin yaw, cos yaw, 0; 0, 0, 1]
  Rz * Ry * Rx

/-! ## Parsing -/

structure Origin where
  xyz : Option (List Char)
  rpy : Option (List Char)

/-- A `joint` element; `none` stands for an element that is not there. -/
structure Joint where
  parent : Option Link
  child : Option Link
  origin : Option Origin

inductive UrdfError where
  | attributeError
  | valueError
  | typeError
deriving DecidableEq, Repr

section Parse

variable (float : List Char → Option K) (cos sin : K → K)

def readNumber (word : List Char) : Except UrdfError K :=
  match float word with
  | some x => .ok x
  | none => .error .valueError

/-- An empty attribute counts as a missing one. -/
def readTriple (text : Option (List Char)) : Except UrdfError (List K) :=
  match text with
  | none | some [] => .ok [0, 0, 0]
  | some text => (PythonText.split text).mapM (readNumber float)

/-- A list of one number is spread over the three rows. -/
def assignColumn (xyz : List K) : Except UrdfError (Fin 3 → K) :=
  match xyz with
  | [x, y, z] => .ok ![x, y, z]
  | [x] => .ok fun _ => x
  | _ => .error .valueError

def jointTransform (origin : Option Origin) : Except UrdfError (Transform K) := do
  let xyz ← readTriple float (origin.bind Origin.xyz)
  let rpy ← readTriple float (origin.bind Origin.rpy)
  match rpy with
  | [roll, pitch, yaw] =>
    let p ← assignColumn xyz
    return transformOf (rpyToR cos sin roll pitch yaw) p
  | _ => .error .typeError

/-- `j.find(tag).get("link")` -/
def linkOf (element : Option Link) : Except UrdfError Link :=
  match element with
  | some link => .ok link
  | none => .error .attributeError

def addJoint (chain : Chain K) (j : Joint) : Except UrdfError (Chain K) := do
  let parent ← linkOf j.parent
  let child ← linkOf j.child
  let T ← jointTransform float cos sin j.origin
  return chain.insert child (parent, T)

def parseUrdfChain (joints : List Joint) : Except UrdfError (Chain K) := joints.foldlM (addJoint float cos sin) ∅

variable {float cos sin}

theorem linkOf_ok {element : Option Link} {link : Link} (h : linkOf element = .ok link) : element = some link := by
  cases element with
  | none => cases h
  | some _ =>
    cases h
    rfl

theorem addJoint_ok {chain chain' : Chain K} {j : Joint} (h : addJoint float cos sin chain j = .ok chain') :
    ∃ parent child T, j.parent = some parent ∧ j.child = some child ∧ jointTransform float cos sin j.origin = .ok T ∧
      chain' = chain.insert child (parent, T) := by
  obtain ⟨parent, hParent, h⟩ := bind_ok h
  obtain ⟨child, hChild, h⟩ := bind_ok h
  obtain ⟨T, hT, h⟩ := bind_ok h
  cases h
  exact ⟨parent, child, T, linkOf_ok hParent, linkOf_ok hChild, hT, rfl⟩

/-- Each entry of the dict is a joint of the file. -/
theorem lookup_parseUrdfChain {joints : List Joint} {chain : Chain K} (h : parseUrdfChain float cos sin joints = .ok chain)
    {parent child : Link} {T : Transform K} (hEntry : chain.lookup child = some (parent, T)) :
    ∃ j ∈ joints, j.parent = some parent ∧ j.child = some child ∧ jointTransform float cos sin j.origin = .ok T := by
  induction joints using List.reverseRecOn generalizing chain with
  | nil =>
    cases h
    rw [AList.lookup_empty] at hEntry
    cases hEntry
  | append_singleton joints j ih =>
    rw [parseUrdfChain, List.foldlM_append] at h
    obtain ⟨before, hBefore, hLast⟩ := bind_ok h
    obtain ⟨_, hJoint, hDone⟩ := bind_ok hLast
    cases hDone
    obtain ⟨parent', child', T', hParent, hChild, hT, rfl⟩ := addJoint_ok hJoint
    by_cases hSame : child = child'
    · subst hSame
      rw [AList.lookup_insert] at hEntry
      cases hEntry
      exact ⟨j, by simp, hParent, hChild, hT⟩
    · rw [AList.lookup_insert_ne hSame] at hEntry
      obtain ⟨other, hOther, hFacts⟩ := ih hBefore hEntry
      exact ⟨other, by simp [hOther], hFacts⟩

end Parse

/-! ## Composing -/

inductive ChainError where
  | cycle (link : Link)
  | noParent (link : Link)
deriving DecidableEq, Repr

section Walk

variable {M : Type}

def parentOf (chain : ChainOf M) (link : Link) : Option (Link × M) := chain.lookup link

variable [Mul M] [One M]

omit [One M] in
/-- The loop of `compose_to_root`; `none` when the fuel has run out. -/
def composeLoop (chain : ChainOf M) (root : Link) : ℕ → Link → List Link → M → Option (Except ChainError M)
  | 0, _, _, _ => none
  | fuel + 1, cur, seen, T =>
    if cur = root then some (.ok T)
    else if cur ∈ seen then some (.error (.cycle cur))
    else
      match parentOf chain cur with
      | none => some (.error (.noParent cur))
      | some (parent, parentChild) => composeLoop chain root fuel parent (cur :: seen) (parentChild * T)

def composeToRoot (fuel : ℕ) (chain : ChainOf M) (leaf root : Link) : Option (Except ChainError M) :=
  composeLoop chain root fuel leaf [] 1

def Returns (chain : ChainOf M) (leaf root : Link) (outcome : Except ChainError M) : Prop :=
  ∃ fuel, composeToRoot fuel chain leaf root = some outcome

/-- At each link on the way the whole product is that of the two parts. -/
def Splits (chain : ChainOf M) (leaf root : Link) : Prop := ∀ n labels, Reaches (parentOf chain) leaf root n labels →
  ∀ m ≤ n, ∀ mid, ancestor (parentOf chain) m leaf = some mid → ∃ rootMid midLeaf, Returns chain mid root (.ok rootMid) ∧
    Returns chain leaf mid (.ok midLeaf) ∧ Returns chain leaf root (.ok (rootMid * midLeaf))

variable {chain : ChainOf M} {leaf root cur : Link} {seen : List Link} {T : M}

omit [One M] in
theorem composeLoop_succ {fuel : ℕ} {outcome : Except ChainError M}
    (h : composeLoop chain root fuel cur seen T = some outcome) :
    composeLoop chain root (fuel + 1) cur seen T = some outcome := by
  induction fuel generalizing cur seen T with
  | zero => cases h
  | succ fuel ih =>
    rw [composeLoop] at h ⊢
    split at h
    · rw [if_pos ‹_›]
      exact h
    · rw [if_neg ‹_›]
      split at h
      · rw [if_pos ‹_›]
        exact h
      · rw [if_neg ‹_›]
        cases hUp : parentOf chain cur with
        | none =>
          rw [hUp] at h
          exact h
        | some next =>
          rw [hUp] at h
          exact ih h

theorem composeToRoot_of_le {fuel more : ℕ} {outcome : Except ChainError M}
    (h : composeToRoot fuel chain leaf root = some outcome) (hMore : fuel ≤ more) :
    composeToRoot more chain leaf root = some outcome := by
  induction more, hMore using Nat.le_induction with
  | base => exact h
  | succ more _ ih => exact composeLoop_succ ih

theorem Returns.unique {outcome outcome' : Except ChainError M} (h : Returns chain leaf root outcome)
    (h' : Returns chain leaf root outcome') : outcome = outcome' := by
  obtain ⟨fuel, hRun⟩ := h
  obtain ⟨fuel', hRun'⟩ := h'
  have hMore := composeToRoot_of_le hRun (Nat.le_add_right fuel fuel')
  have hMore' := composeToRoot_of_le hRun' (Nat.le_add_left fuel' fuel)
  exact Option.some.inj (hMore.symm.trans hMore')

end Walk

/-- What an outcome says about the chain. -/
def Ends (chain : Chain K) (leaf root : Link) : Except ChainError (Transform K) → Prop
  | .ok T => ∃ n labels, Reaches (parentOf chain) leaf root n labels ∧ T = labels.prod
  | .error (.noParent link) => Stuck (parentOf chain) leaf root link
  | .error (.cycle link) => Circles (parentOf chain) leaf root link

/-- The loop after `n` links. -/
structure Walked (chain : Chain K) (leaf root : Link) (n : ℕ) (cur : Link) (seen : List Link) (T : Transform K) : Prop where
  climbed : ∃ labels, climb (parentOf chain) n leaf = some (cur, labels) ∧ T = labels.prod
  seen_iff : ∀ link, link ∈ seen ↔ ∃ k < n, ancestor (parentOf chain) k leaf = some link
  length : seen.length = n
  nodup : seen.Nodup
  known : seen ⊆ chain.keys
  noRoot : root ∉ seen

section Loop

variable {chain : Chain K} {leaf root cur : Link} {n : ℕ} {seen : List Link} {T : Transform K}

theorem walked_start (chain : Chain K) (leaf root : Link) : Walked chain leaf root 0 leaf [] 1 where
  climbed := ⟨[], rfl, rfl⟩
  seen_iff := by simp
  length := rfl
  nodup := .nil
  known := by simp
  noRoot := by simp

theorem Walked.ancestor_eq (h : Walked chain leaf root n cur seen T) : ancestor (parentOf chain) n leaf = some cur := by
  obtain ⟨labels, hClimb, -⟩ := h.climbed
  exact ancestor_eq_some_iff.mpr ⟨labels, hClimb⟩

theorem Walked.first (h : Walked chain leaf root n cur seen T) :
    ∀ k < n, ancestor (parentOf chain) k leaf ≠ some root := by
  intro k hk hRoot
  exact h.noRoot ((h.seen_iff root).mpr ⟨k, hk, hRoot⟩)

theorem Walked.first_through (h : Walked chain leaf root n cur seen T) (hCur : cur ≠ root) :
    ∀ k ≤ n, ancestor (parentOf chain) k leaf ≠ some root := by
  intro k hk hRoot
  rcases Nat.lt_or_eq_of_le hk with hLess | hLast
  · exact h.first k hLess hRoot
  · rw [hLast, h.ancestor_eq] at hRoot
    cases hRoot
    exact hCur rfl

theorem Walked.bounded (h : Walked chain leaf root n cur seen T) : n ≤ chain.keys.length := by
  rw [← h.length]
  exact (h.nodup.subperm h.known).length_le

theorem Walked.step (h : Walked chain leaf root n cur seen T) (hRoot : cur ≠ root) (hNew : cur ∉ seen) {parent : Link}
    {parentChild : Transform K} (hUp : parentOf chain cur = some (parent, parentChild)) :
    Walked chain leaf root (n + 1) parent (cur :: seen) (parentChild * T) where
  climbed := by
    obtain ⟨labels, hClimb, rfl⟩ := h.climbed
    refine ⟨parentChild :: labels, ?_, by rw [List.prod_cons]⟩
    rw [climb, hClimb, Option.bind_some, hUp, Option.map_some]
  seen_iff link := by
    rw [List.mem_cons, h.seen_iff]
    constructor
    · rintro (rfl | ⟨k, hk, hLink⟩)
      · exact ⟨n, by omega, h.ancestor_eq⟩
      · exact ⟨k, by omega, hLink⟩
    · rintro ⟨k, hk, hLink⟩
      rcases Nat.lt_or_eq_of_le (Nat.le_of_lt_succ hk) with hLess | hLast
      · exact .inr ⟨k, hLess, hLink⟩
      · rw [hLast, h.ancestor_eq] at hLink
        exact .inl (Option.some.inj hLink).symm
  length := by rw [List.length_cons, h.length]
  nodup := List.nodup_cons.mpr ⟨hNew, h.nodup⟩
  known := by
    have hKey : cur ∈ chain := AList.lookup_isSome.mp (Option.isSome_iff_exists.mpr ⟨_, hUp⟩)
    exact List.cons_subset.mpr ⟨AList.mem_keys.mp hKey, h.known⟩
  noRoot := by
    rw [List.mem_cons, not_or]
    exact ⟨fun hEq => hRoot hEq.symm, h.noRoot⟩

/-- The chain has too few links for the loop to outlast the fuel. -/
theorem composeLoop_ends {fuel : ℕ} (h : Walked chain leaf root n cur seen T) (hFuel : chain.keys.length < fuel + n) :
    ∃ outcome, composeLoop chain root fuel cur seen T = some outcome ∧ Ends chain leaf root outcome := by
  induction fuel generalizing n cur seen T with
  | zero =>
    have hBound := h.bounded
    omega
  | succ fuel ih =>
    rw [composeLoop]
    by_cases hRoot : cur = root
    · subst hRoot
      obtain ⟨labels, hClimb, rfl⟩ := h.climbed
      exact ⟨_, if_pos rfl, n, labels, ⟨hClimb, h.first⟩, rfl⟩
    rw [if_neg hRoot]
    by_cases hSeen : cur ∈ seen
    · obtain ⟨k, hk, hEarlier⟩ := (h.seen_iff cur).mp hSeen
      exact ⟨_, if_pos hSeen, k, n, hk, hEarlier, h.ancestor_eq, h.first_through hRoot⟩
    rw [if_neg hSeen]
    cases hUp : parentOf chain cur with
    | none => exact ⟨_, rfl, n, h.ancestor_eq, hUp, h.first_through hRoot⟩
    | some next => exact ih (h.step hRoot hSeen hUp) (by omega)

end Loop

/-! ## The outcome -/

section Outcome

variable {chain : Chain K} {leaf root : Link}

theorem composeToRoot_ends (chain : Chain K) (leaf root : Link) :
    ∃ outcome, (∀ fuel, chain.keys.length < fuel → composeToRoot fuel chain leaf root = some outcome) ∧
      Ends chain leaf root outcome := by
  obtain ⟨outcome, hRun, hEnds⟩ := composeLoop_ends (walked_start chain leaf root) (Nat.lt_succ_self chain.keys.length)
  exact ⟨outcome, fun fuel hFuel => composeToRoot_of_le hRun hFuel, hEnds⟩

theorem Returns.ends {outcome : Except ChainError (Transform K)} (h : Returns chain leaf root outcome) :
    Ends chain leaf root outcome := by
  obtain ⟨final, hFinal, hEnds⟩ := composeToRoot_ends chain leaf root
  rw [h.unique ⟨_, hFinal _ (Nat.lt_succ_self _)⟩]
  exact hEnds

theorem exists_returns (chain : Chain K) (leaf root : Link) :
    ∃ outcome, Returns chain leaf root outcome ∧ Ends chain leaf root outcome := by
  obtain ⟨outcome, hRun, hEnds⟩ := composeToRoot_ends chain leaf root
  exact ⟨outcome, ⟨_, hRun _ (Nat.lt_succ_self _)⟩, hEnds⟩

theorem returns_ok_iff {T : Transform K} : Returns chain leaf root (.ok T) ↔
    ∃ n labels, Reaches (parentOf chain) leaf root n labels ∧ T = labels.prod := by
  refine ⟨Returns.ends, ?_⟩
  rintro ⟨n, labels, hReaches, rfl⟩
  obtain ⟨outcome, hReturns, hEnds⟩ := exists_returns chain leaf root
  match outcome, hEnds with
  | .ok _, ⟨_, _, hOther, rfl⟩ =>
    rw [(hReaches.unique hOther).2]
    exact hReturns
  | .error (.noParent link), hStuck => exact absurd hStuck (hReaches.not_stuck link)
  | .error (.cycle link), hCircles => exact absurd hCircles (hReaches.not_circles link)

theorem returns_noParent_iff {link : Link} :
    Returns chain leaf root (.error (.noParent link)) ↔ Stuck (parentOf chain) leaf root link := by
  refine ⟨Returns.ends, fun hStuck => ?_⟩
  obtain ⟨outcome, hReturns, hEnds⟩ := exists_returns chain leaf root
  match outcome, hEnds with
  | .ok _, ⟨_, _, hReaches, _⟩ => exact absurd hStuck (hReaches.not_stuck link)
  | .error (.noParent other), hOther =>
    rw [hStuck.unique hOther]
    exact hReturns
  | .error (.cycle other), hCircles => exact absurd hCircles (hStuck.not_circles other)

theorem returns_cycle_iff : (∃ link, Returns chain leaf root (.error (.cycle link))) ↔
    ∃ link, Circles (parentOf chain) leaf root link := by
  constructor
  · rintro ⟨link, h⟩
    exact ⟨link, h.ends⟩
  · rintro ⟨link, hCircles⟩
    obtain ⟨outcome, hReturns, hEnds⟩ := exists_returns chain leaf root
    match outcome, hEnds with
    | .ok _, ⟨_, _, hReaches, _⟩ => exact absurd hCircles (hReaches.not_circles link)
    | .error (.noParent other), hStuck => exact absurd hCircles (hStuck.not_circles link)
    | .error (.cycle other), _ => exact ⟨other, hReturns⟩

/-- What `compose_to_root` owes for one leaf and one root. -/
structure Composition (chain : Chain K) (leaf root : Link) : Prop where
  terminates : ∃ outcome, ∀ fuel, chain.keys.length < fuel → composeToRoot fuel chain leaf root = some outcome
  product : ∀ T, Returns chain leaf root (.ok T) ↔
    ∃ n labels, Reaches (parentOf chain) leaf root n labels ∧ T = labels.prod
  reachable : (∃ T, Returns chain leaf root (.ok T)) ↔ Relation.ReflTransGen (Parent (parentOf chain)) leaf root
  noParent : ∀ link, Returns chain leaf root (.error (.noParent link)) ↔ Stuck (parentOf chain) leaf root link
  cycle : (∃ link, Returns chain leaf root (.error (.cycle link))) ↔ ∃ link, Circles (parentOf chain) leaf root link
  splits : Splits chain leaf root

theorem composeToRoot_spec (chain : Chain K) (leaf root : Link) : Composition chain leaf root := by
  constructor
  · obtain ⟨outcome, hRun, -⟩ := composeToRoot_ends chain leaf root
    exact ⟨outcome, hRun⟩
  · exact fun T => returns_ok_iff
  · rw [← exists_reaches_iff]
    constructor
    · rintro ⟨T, h⟩
      obtain ⟨n, labels, hReaches, -⟩ := returns_ok_iff.mp h
      exact ⟨n, labels, hReaches⟩
    · rintro ⟨n, labels, hReaches⟩
      exact ⟨labels.prod, returns_ok_iff.mpr ⟨n, labels, hReaches, rfl⟩⟩
  · exact fun link => returns_noParent_iff
  · exact returns_cycle_iff
  · intro n labels hReaches m hm mid hMid
    obtain ⟨upper, lower, hUpper, hLower, hLabels⟩ := hReaches.split hm hMid
    refine ⟨upper.prod, lower.prod, ?_, ?_, ?_⟩
    · exact returns_ok_iff.mpr ⟨n - m, upper, hUpper, rfl⟩
    · exact returns_ok_iff.mpr ⟨m, lower, hLower, rfl⟩
    · exact returns_ok_iff.mpr ⟨n, labels, hReaches, by rw [hLabels, List.prod_append]⟩

end Outcome

end Model

/-! ## Products of doubles -/

/-- A transform of doubles, by their values. -/
structure DoubleTransform where
  entries : Transform ℚ

def double (x : ℚ) : ℚ := NearestEven.rounded 53 (-1074) x

/-- `A @ B`: every product is rounded, and every sum, from left to right. -/
def DoubleTransform.mul (A B : DoubleTransform) : DoubleTransform where
  entries i j :=
    let term k := double (A.entries i k * B.entries k j)
    double (double (double (term 0 + term 1) + term 2) + term 3)

instance : Mul DoubleTransform := ⟨DoubleTransform.mul⟩

instance : One DoubleTransform := ⟨⟨1⟩⟩

def shifted (x : ℚ) : DoubleTransform := ⟨transformOf 1 ![double x, 0, 0]⟩

/-- Three joints that are 0.1 m, 0.2 m and 0.3 m apart. -/
def threeJoints : ChainOf DoubleTransform :=
  ⟨[⟨some "tool", some "arm", shifted (1 / 10)⟩, ⟨some "arm", some "base", shifted (1 / 5)⟩,
    ⟨some "base", some "world", shifted (3 / 10)⟩], show [some "tool", some "arm", some "base"].Nodup by decide⟩

/-- `0.3 + (0.2 + 0.1)` is above `(0.3 + 0.2) + 0.1`. -/
theorem splits_three_joints : ¬∀ (chain : ChainOf DoubleTransform) leaf root, Splits chain leaf root := by
  intro hClaim
  have hReaches : Reaches (parentOf threeJoints) (some "tool") (some "world") 3
      [shifted (3 / 10), shifted (1 / 5), shifted (1 / 10)] := by
    constructor
    · rfl
    · have hBefore : ∀ k < 3, ancestor (parentOf threeJoints) k (some "tool") ≠ some (some "world") := by decide
      exact hBefore
  obtain ⟨rootMid, midLeaf, hUpper, hLower, hWhole⟩ :=
    hClaim threeJoints _ _ _ _ hReaches 1 (by omega) (some "arm") rfl
  have hUpper' : Returns threeJoints (some "arm") (some "world") (.ok (shifted (3 / 10) * (shifted (1 / 5) * 1))) := ⟨4, rfl⟩
  have hLower' : Returns threeJoints (some "tool") (some "arm") (.ok (shifted (1 / 10) * 1)) := ⟨4, rfl⟩
  have hWhole' : Returns threeJoints (some "tool") (some "world")
      (.ok (shifted (3 / 10) * (shifted (1 / 5) * (shifted (1 / 10) * 1)))) := ⟨4, rfl⟩
  cases hUpper.unique hUpper'
  cases hLower.unique hLower'
  have hEqual := congrArg (fun T => T.entries 0 3) (Except.ok.inj (hWhole.unique hWhole'))
  have hAbove : ((shifted (3 / 10) * (shifted (1 / 5) * 1)) * (shifted (1 / 10) * 1)).entries 0 3 <
      (shifted (3 / 10) * (shifted (1 / 5) * (shifted (1 / 10) * 1))).entries 0 3 := by decide +kernel
  exact absurd hEqual hAbove.ne

end RoveMapping.ColorMesh
