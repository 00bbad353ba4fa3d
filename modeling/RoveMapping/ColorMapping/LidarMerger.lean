import Mathlib.Data.List.Induction
import Mathlib.Data.List.Nodup
import Mathlib.Data.List.Pairwise

/-! # Pairing the clouds of two lidars

`LidarMerger`: a slot for the last cloud of each sensor, and a merge as soon as both are filled. What
`sensor_msgs_py` and NumPy do with the clouds is a parameter; any of it may raise.
-/
namespace RoveMapping.ColorMapping
set_option autoImplicit false

inductive Topic where
  | first
  | second
deriving DecidableEq, Repr

def Topic.other : Topic → Topic
  | first => second
  | second => first

/-- A message object, which is told from the others by the number of its arrival. -/
structure Received (Cloud : Type) where
  index : ℕ
  cloud : Cloud

structure Arrival (Cloud : Type) where
  topic : Topic
  cloud : Cloud

/-- `pc2.read_points`, `np.concatenate` and `pc2.create_cloud` with the publishing. -/
structure Pc2 (Cloud Fields Row Exc : Type) where
  fields : Cloud → Fields
  fieldNames : Fields → List String
  readPoints : Cloud → List String → Except Exc (List Row)
  concatenate : List Row → List Row → Except Exc (List Row)
  createCloud : Fields → List Row → Except Exc Cloud

structure LidarMerger (Cloud : Type) where
  cloud1 : Option (Received Cloud)
  cloud2 : Option (Received Cloud)

def LidarMerger.slot {Cloud : Type} (merger : LidarMerger Cloud) : Topic → Option (Received Cloud)
  | .first => merger.cloud1
  | .second => merger.cloud2

/-- A merge of two clouds; the outcome is the cloud that was published, if any was. -/
structure Attempt (Cloud Exc : Type) where
  cloud1 : Received Cloud
  cloud2 : Received Cloud
  outcome : Except Exc (Option Cloud)

def Attempt.used {Cloud Exc : Type} (attempt : Attempt Cloud Exc) : Topic → Received Cloud
  | .first => attempt.cloud1
  | .second => attempt.cloud2

section Model

variable {Cloud Fields Row Exc : Type} (pc2 : Pc2 Cloud Fields Row Exc)

/-- The body of the `try` of `try_publish`. -/
def merge (cloud1 cloud2 : Cloud) : Except Exc (Option Cloud) := do
  let fieldNames := pc2.fieldNames (pc2.fields cloud1)
  let points1 ← pc2.readPoints cloud1 fieldNames
  let points2 ← pc2.readPoints cloud2 fieldNames
  if points1 = [] ∧ points2 = [] then return none
  else
    let merged ←
      if points1 = [] then pure points2
      else if points2 = [] then pure points1
      else pc2.concatenate points1 points2
    some <$> pc2.createCloud (pc2.fields cloud1) merged

/-- Both slots are reset whatever the merge comes to. -/
def tryPublish (merger : LidarMerger Cloud) : LidarMerger Cloud × Option (Attempt Cloud Exc) :=
  match merger.cloud1, merger.cloud2 with
  | some cloud1, some cloud2 => (⟨none, none⟩, some ⟨cloud1, cloud2, merge pc2 cloud1.cloud cloud2.cloud⟩)
  | _, _ => (merger, none)

def cbCloud1 (merger : LidarMerger Cloud) (msg : Received Cloud) : LidarMerger Cloud × Option (Attempt Cloud Exc) :=
  tryPublish pc2 { merger with cloud1 := some msg }

def cbCloud2 (merger : LidarMerger Cloud) (msg : Received Cloud) : LidarMerger Cloud × Option (Attempt Cloud Exc) :=
  tryPublish pc2 { merger with cloud2 := some msg }

def callback (merger : LidarMerger Cloud) (topic : Topic) (msg : Received Cloud) :
    LidarMerger Cloud × Option (Attempt Cloud Exc) :=
  match topic with
  | .first => cbCloud1 pc2 merger msg
  | .second => cbCloud2 pc2 merger msg

/-- The node in the middle of a run; each attempt with the number of the arrival in whose callback it was made. -/
structure Session (Cloud Exc : Type) where
  merger : LidarMerger Cloud
  arrived : ℕ
  attempts : List (ℕ × Attempt Cloud Exc)

def Session.receive (s : Session Cloud Exc) (arrival : Arrival Cloud) : Session Cloud Exc :=
  let (merger, attempt) := callback pc2 s.merger arrival.topic ⟨s.arrived, arrival.cloud⟩
  ⟨merger, s.arrived + 1, s.attempts ++ (attempt.map fun attempt => (s.arrived, attempt)).toList⟩

def run (arrivals : List (Arrival Cloud)) : Session Cloud Exc := arrivals.foldl (Session.receive pc2) ⟨⟨none, none⟩, 0, []⟩

/-- What a callback can do: fill a slot, or use both clouds. -/
theorem receive_cases (s : Session Cloud Exc) (arrival : Arrival Cloud) :
    let s' := s.receive pc2 arrival
    s'.arrived = s.arrived + 1 ∧
      ((s.merger.slot arrival.topic.other = none ∧ s'.attempts = s.attempts ∧
          s'.merger.slot arrival.topic = some ⟨s.arrived, arrival.cloud⟩ ∧
          s'.merger.slot arrival.topic.other = none) ∨
        ∃ earlier attempt, s.merger.slot arrival.topic.other = some earlier ∧
          s'.attempts = s.attempts ++ [(s.arrived, attempt)] ∧
          attempt.used arrival.topic = ⟨s.arrived, arrival.cloud⟩ ∧ attempt.used arrival.topic.other = earlier ∧
          ∀ topic, s'.merger.slot topic = none) := by
  obtain ⟨⟨cloud1, cloud2⟩, arrived, attempts⟩ := s
  obtain ⟨topic, cloud⟩ := arrival
  refine ⟨rfl, ?_⟩
  cases topic with
  | first =>
    cases cloud2 with
    | none => exact .inl ⟨rfl, List.append_nil _, rfl, rfl⟩
    | some earlier => exact .inr ⟨earlier, _, rfl, rfl, rfl, rfl, fun topic => by cases topic <;> rfl⟩
  | second =>
    cases cloud1 with
    | none => exact .inl ⟨rfl, List.append_nil _, rfl, rfl⟩
    | some earlier => exact .inr ⟨earlier, _, rfl, rfl, rfl, rfl, fun topic => by cases topic <;> rfl⟩

end Model

/-! ## What the history says -/

section History

variable {Cloud Exc : Type}

/-- The message is the last on its topic, and did not arrive before number `since`. -/
structure Latest (arrivals : List (Arrival Cloud)) (topic : Topic) (since : ℕ) (msg : Received Cloud) : Prop where
  arrived : arrivals[msg.index]? = some ⟨topic, msg.cloud⟩
  fresh : since ≤ msg.index
  last : ∀ j arrival, msg.index < j → arrivals[j]? = some arrival → arrival.topic ≠ topic

/-- The number of the first arrival after the attempts. -/
def since (attempts : List (ℕ × Attempt Cloud Exc)) : ℕ :=
  match attempts.getLast? with
  | none => 0
  | some (time, _) => time + 1

def Used (attempts : List (ℕ × Attempt Cloud Exc)) (i : ℕ) : Prop :=
  ∃ attempt ∈ attempts, ∃ topic, (attempt.2.used topic).index = i

/-- Another message came on the topic, and no attempt was made in between. -/
def Superseded (arrivals : List (Arrival Cloud)) (attempts : List (ℕ × Attempt Cloud Exc)) (topic : Topic) (i : ℕ) : Prop :=
  ∃ j, i < j ∧ (∃ arrival, arrivals[j]? = some arrival ∧ arrival.topic = topic) ∧
    ∀ attempt ∈ attempts, ¬(i ≤ attempt.1 ∧ attempt.1 < j)

def usedIndices (attempts : List (ℕ × Attempt Cloud Exc)) : List ℕ :=
  attempts.flatMap fun attempt => [attempt.2.cloud1.index, attempt.2.cloud2.index]

/-- The pairing that the node owes after the callbacks of `arrivals`. -/
structure Paired (arrivals : List (Arrival Cloud)) (s : Session Cloud Exc) : Prop where
  onePending : s.merger.cloud1 = none ∨ s.merger.cloud2 = none
  latest : ∀ before time attempt after, s.attempts = before ++ (time, attempt) :: after →
    ∀ topic, Latest (arrivals.take (time + 1)) topic (since before) (attempt.used topic)
  increasing : s.attempts.Pairwise fun a b => ∀ topic, (a.2.used topic).index < (b.2.used topic).index
  once : (usedIndices s.attempts).Nodup
  unused : ∀ i arrival, arrivals[i]? = some arrival → Used s.attempts i ∨
    Superseded arrivals s.attempts arrival.topic i ∨ (s.merger.slot arrival.topic).map Received.index = some i

/-- The invariant: the slots hold the last clouds since the last attempt. -/
structure Tracks (arrivals : List (Arrival Cloud)) (s : Session Cloud Exc) : Prop extends Paired arrivals s where
  count : s.arrived = arrivals.length
  filled : ∀ topic msg, s.merger.slot topic = some msg → Latest arrivals topic (since s.attempts) msg
  past : ∀ attempt ∈ s.attempts, attempt.1 < since s.attempts
  since_le : since s.attempts ≤ arrivals.length
  before : ∀ attempt ∈ s.attempts, ∀ topic, (attempt.2.used topic).index ≤ attempt.1

theorem since_append (attempts : List (ℕ × Attempt Cloud Exc)) (time : ℕ) (attempt : Attempt Cloud Exc) :
    since (attempts ++ [(time, attempt)]) = time + 1 := by
  simp [since]

theorem Latest.append_other {arrivals : List (Arrival Cloud)} {topic : Topic} {n : ℕ} {msg : Received Cloud}
    (h : Latest arrivals topic n msg) {arrival : Arrival Cloud} (hOther : arrival.topic ≠ topic) :
    Latest (arrivals ++ [arrival]) topic n msg where
  arrived := by
    obtain ⟨hIndex, -⟩ := List.getElem?_eq_some_iff.mp h.arrived
    rw [List.getElem?_append_left hIndex, h.arrived]
  fresh := h.fresh
  last j other hj hOther' := by
    rcases Nat.lt_trichotomy j arrivals.length with hLess | hEq | hMore
    · rw [List.getElem?_append_left hLess] at hOther'
      exact h.last j other hj hOther'
    · rw [hEq, List.getElem?_concat_length] at hOther'
      cases hOther'
      exact hOther
    · rw [List.getElem?_eq_none (by simp; omega)] at hOther'
      cases hOther'

theorem latest_append (arrivals : List (Arrival Cloud)) (arrival : Arrival Cloud) {n : ℕ} (hn : n ≤ arrivals.length) :
    Latest (arrivals ++ [arrival]) arrival.topic n ⟨arrivals.length, arrival.cloud⟩ where
  arrived := List.getElem?_concat_length
  fresh := hn
  last j other hj hOther := by
    change arrivals.length < j at hj
    rw [List.getElem?_eq_none (by simp; omega)] at hOther
    cases hOther

theorem Topic.other_ne (topic : Topic) : topic.other ≠ topic := by cases topic <;> decide

theorem Topic.eq_or_other (topic base : Topic) : topic = base ∨ topic = base.other := by
  cases topic <;> cases base <;> decide

/-! ## One callback -/

section Step

variable {arrivals : List (Arrival Cloud)} {arrival : Arrival Cloud} {s : Session Cloud Exc}
  {made : List (ℕ × Attempt Cloud Exc)}

theorem getElem?_append_cases {i : ℕ} {found : Arrival Cloud} (h : (arrivals ++ [arrival])[i]? = some found) :
    arrivals[i]? = some found ∨ i = arrivals.length ∧ found = arrival := by
  rcases Nat.lt_trichotomy i arrivals.length with hLess | hEq | hMore
  · rw [List.getElem?_append_left hLess] at h
    exact .inl h
  · rw [hEq, List.getElem?_concat_length] at h
    cases h
    exact .inr ⟨hEq, rfl⟩
  · rw [List.getElem?_eq_none (by simp; omega)] at h
    cases h

theorem lt_length_of_getElem? {i : ℕ} {found : Arrival Cloud} (h : arrivals[i]? = some found) : i < arrivals.length := by
  obtain ⟨hi, -⟩ := List.getElem?_eq_some_iff.mp h
  exact hi

theorem Used.append {attempts : List (ℕ × Attempt Cloud Exc)} {i : ℕ} (h : Used attempts i) : Used (attempts ++ made) i := by
  obtain ⟨attempt, hMem, topic, hIndex⟩ := h
  exact ⟨attempt, List.mem_append_left made hMem, topic, hIndex⟩

/-- Attempts from now on do not come between messages of the past. -/
theorem Superseded.append {attempts : List (ℕ × Attempt Cloud Exc)} {topic : Topic} {i : ℕ}
    (h : Superseded arrivals attempts topic i) (hMade : ∀ attempt ∈ made, arrivals.length ≤ attempt.1) :
    Superseded (arrivals ++ [arrival]) (attempts ++ made) topic i := by
  obtain ⟨j, hij, ⟨later, hLater, hTopic⟩, hNone⟩ := h
  have hj := lt_length_of_getElem? hLater
  refine ⟨j, hij, ⟨later, ?_, hTopic⟩, ?_⟩
  · rw [List.getElem?_append_left hj, hLater]
  · intro attempt hAttempt
    rcases List.mem_append.mp hAttempt with hOld | hNew
    · exact hNone attempt hOld
    · have hTime := hMade attempt hNew
      omega

theorem Tracks.superseded (h : Tracks arrivals s) {msg : Received Cloud} (hSlot : s.merger.slot arrival.topic = some msg)
    (hMade : ∀ attempt ∈ made, arrivals.length ≤ attempt.1) :
    Superseded (arrivals ++ [arrival]) (s.attempts ++ made) arrival.topic msg.index := by
  have hLatest := h.filled _ _ hSlot
  refine ⟨arrivals.length, lt_length_of_getElem? hLatest.arrived, ⟨arrival, List.getElem?_concat_length, rfl⟩, ?_⟩
  intro attempt hAttempt
  rcases List.mem_append.mp hAttempt with hOld | hNew
  · have hPast := h.past attempt hOld
    have hFresh := hLatest.fresh
    omega
  · have hTime := hMade attempt hNew
    omega

variable (made) in
/-- The clause on unused clouds, for the messages that had arrived before. -/
theorem Tracks.unused_append (h : Tracks arrivals s) (hMade : ∀ attempt ∈ made, arrivals.length ≤ attempt.1)
    {i : ℕ} {found : Arrival Cloud} (hFound : arrivals[i]? = some found) :
    Used (s.attempts ++ made) i ∨ Superseded (arrivals ++ [arrival]) (s.attempts ++ made) found.topic i ∨
      ∃ msg, found.topic = arrival.topic.other ∧ s.merger.slot arrival.topic.other = some msg ∧ msg.index = i := by
  rcases h.unused i found hFound with hUsed | hSuperseded | hPending
  · exact .inl hUsed.append
  · exact .inr (.inl (hSuperseded.append hMade))
  · obtain ⟨msg, hSlot, rfl⟩ := Option.map_eq_some_iff.mp hPending
    rcases found.topic.eq_or_other arrival.topic with hSame | hOther
    · rw [hSame] at hSlot ⊢
      exact .inr (.inl (h.superseded hSlot hMade))
    · rw [hOther] at hSlot
      exact .inr (.inr ⟨msg, hOther, hSlot, rfl⟩)

theorem Tracks.latest_append (h : Tracks arrivals s) {before after : List (ℕ × Attempt Cloud Exc)} {time : ℕ}
    {attempt : Attempt Cloud Exc} (hSplit : s.attempts = before ++ (time, attempt) :: after) (topic : Topic) :
    Latest ((arrivals ++ [arrival]).take (time + 1)) topic (since before) (attempt.used topic) := by
  have hPast : time < since s.attempts := h.past (time, attempt) (by simp [hSplit])
  have hLength := h.since_le
  rw [List.take_append_of_le_length (by omega)]
  exact h.latest before time attempt after hSplit topic

theorem Tracks.fill (h : Tracks arrivals s) {s' : Session Cloud Exc} (hCount : s'.arrived = s.arrived + 1)
    (hAttempts : s'.attempts = s.attempts) (hOther : s.merger.slot arrival.topic.other = none)
    (hFilled : s'.merger.slot arrival.topic = some ⟨s.arrived, arrival.cloud⟩)
    (hOther' : s'.merger.slot arrival.topic.other = none) : Tracks (arrivals ++ [arrival]) s' where
  onePending := by
    cases hTopic : arrival.topic with
    | first =>
      rw [hTopic] at hOther'
      exact .inr hOther'
    | second =>
      rw [hTopic] at hOther'
      exact .inl hOther'
  latest before time attempt after hSplit topic := by
    rw [hAttempts] at hSplit
    exact h.latest_append hSplit topic
  increasing := by
    rw [hAttempts]
    exact h.increasing
  once := by
    rw [hAttempts]
    exact h.once
  unused i found hFound := by
    rw [hAttempts]
    rcases getElem?_append_cases hFound with hOld | ⟨rfl, rfl⟩
    · rcases h.unused_append [] nofun hOld with hUsed | hSuperseded | ⟨msg, -, hSlot, -⟩
      · rw [List.append_nil] at hUsed
        exact .inl hUsed
      · rw [List.append_nil] at hSuperseded
        exact .inr (.inl hSuperseded)
      · rw [hOther] at hSlot
        cases hSlot
    · rw [hFilled, Option.map_some, h.count]
      exact .inr (.inr rfl)
  count := by rw [hCount, h.count, List.length_append, List.length_singleton]
  filled topic msg hSlot := by
    rw [hAttempts]
    rcases topic.eq_or_other arrival.topic with rfl | rfl
    · rw [hFilled, h.count] at hSlot
      cases hSlot
      exact ColorMapping.latest_append arrivals arrival h.since_le
    · rw [hOther'] at hSlot
      cases hSlot
  past := by
    rw [hAttempts]
    exact h.past
  since_le := by
    rw [hAttempts, List.length_append]
    exact Nat.le_add_right_of_le h.since_le
  before := by
    rw [hAttempts]
    exact h.before

theorem usedIndices_append (attempts : List (ℕ × Attempt Cloud Exc)) (time : ℕ) (attempt : Attempt Cloud Exc) :
    usedIndices (attempts ++ [(time, attempt)]) = usedIndices attempts ++ [attempt.cloud1.index, attempt.cloud2.index] := by
  simp [usedIndices]

/-- Clouds that were used arrived before the time from which new ones count. -/
theorem Tracks.used_lt (h : Tracks arrivals s) {i : ℕ} (hi : i ∈ usedIndices s.attempts) : i < since s.attempts := by
  obtain ⟨attempt, hMem, hIndex⟩ := List.mem_flatMap.mp hi
  have hPast := h.past attempt hMem
  have hFirst : attempt.2.cloud1.index ≤ attempt.1 := h.before attempt hMem .first
  have hSecond : attempt.2.cloud2.index ≤ attempt.1 := h.before attempt hMem .second
  rw [List.mem_pair] at hIndex
  omega

section NewAttempt

variable {earlier : Received Cloud} {attempt : Attempt Cloud Exc}
  (hOther : s.merger.slot arrival.topic.other = some earlier)
  (hNew : attempt.used arrival.topic = ⟨s.arrived, arrival.cloud⟩) (hEarlier : attempt.used arrival.topic.other = earlier)
include hOther hNew hEarlier

/-- The two clouds of a new attempt are the last of their sensors. -/
theorem Tracks.latest_new (h : Tracks arrivals s) (topic : Topic) :
    Latest (arrivals ++ [arrival]) topic (since s.attempts) (attempt.used topic) := by
  rcases topic.eq_or_other arrival.topic with rfl | rfl
  · rw [hNew, h.count]
    exact ColorMapping.latest_append arrivals arrival h.since_le
  · rw [hEarlier]
    exact (h.filled _ _ hOther).append_other arrival.topic.other_ne.symm

theorem Tracks.used_le (h : Tracks arrivals s) (topic : Topic) : (attempt.used topic).index ≤ s.arrived := by
  have hIndex := lt_length_of_getElem? (h.latest_new hOther hNew hEarlier topic).arrived
  rw [List.length_append, List.length_singleton, ← h.count] at hIndex
  omega

theorem Tracks.latest_split (h : Tracks arrivals s) {before after : List (ℕ × Attempt Cloud Exc)} {time : ℕ}
    {made : Attempt Cloud Exc} (hSplit : s.attempts ++ [(s.arrived, attempt)] = before ++ (time, made) :: after)
    (topic : Topic) : Latest ((arrivals ++ [arrival]).take (time + 1)) topic (since before) (made.used topic) := by
  rcases after.eq_nil_or_concat with rfl | ⟨front, last, rfl⟩
  · -- the new attempt itself
    obtain ⟨rfl, hLast⟩ := List.append_inj' hSplit rfl
    cases hLast
    rw [List.take_of_length_le (by simp [h.count])]
    exact h.latest_new hOther hNew hEarlier topic
  · rw [List.concat_eq_append, ← List.cons_append, ← List.append_assoc] at hSplit
    obtain ⟨hOld, -⟩ := List.append_inj' hSplit rfl
    exact h.latest_append hOld topic

theorem Tracks.increasing_new (h : Tracks arrivals s) : (s.attempts ++ [(s.arrived, attempt)]).Pairwise fun a b =>
    ∀ topic, (a.2.used topic).index < (b.2.used topic).index := by
  rw [List.pairwise_append]
  refine ⟨h.increasing, List.pairwise_singleton _ _, ?_⟩
  intro old hOld new hMem topic
  rw [List.mem_singleton.mp hMem]
  have hPast := h.past old hOld
  have hUsed := h.before old hOld topic
  exact Nat.lt_of_le_of_lt hUsed (Nat.lt_of_lt_of_le hPast (h.latest_new hOther hNew hEarlier topic).fresh)

/-- One arrival has one topic, and the clouds of earlier attempts came before. -/
theorem Tracks.once_new (h : Tracks arrivals s) : (usedIndices (s.attempts ++ [(s.arrived, attempt)])).Nodup := by
  have hFirst := h.latest_new hOther hNew hEarlier .first
  have hSecond := h.latest_new hOther hNew hEarlier .second
  rw [usedIndices_append, List.nodup_append]
  refine ⟨h.once, ?_, ?_⟩
  · rw [List.nodup_cons, List.mem_singleton]
    refine ⟨fun hSame => ?_, List.nodup_singleton _⟩
    have hIndexFirst : (arrivals ++ [arrival])[attempt.cloud1.index]? = some ⟨.first, attempt.cloud1.cloud⟩ := hFirst.arrived
    have hIndexSecond : (arrivals ++ [arrival])[attempt.cloud2.index]? = some ⟨.second, attempt.cloud2.cloud⟩ :=
      hSecond.arrived
    rw [hSame, hIndexSecond] at hIndexFirst
    cases hIndexFirst
  · intro i hi j hj hSame
    have hOld := h.used_lt hi
    have hFreshFirst : since s.attempts ≤ attempt.cloud1.index := hFirst.fresh
    have hFreshSecond : since s.attempts ≤ attempt.cloud2.index := hSecond.fresh
    rw [List.mem_pair] at hj
    omega

theorem Tracks.unused_new (h : Tracks arrivals s) {i : ℕ} {found : Arrival Cloud}
    (hFound : (arrivals ++ [arrival])[i]? = some found) : Used (s.attempts ++ [(s.arrived, attempt)]) i ∨
      Superseded (arrivals ++ [arrival]) (s.attempts ++ [(s.arrived, attempt)]) found.topic i := by
  have hMade : ∀ new ∈ [(s.arrived, attempt)], arrivals.length ≤ new.1 := by
    intro new hMem
    rw [List.mem_singleton.mp hMem]
    exact Nat.le_of_eq h.count.symm
  have hUses (topic : Topic) : Used (s.attempts ++ [(s.arrived, attempt)]) (attempt.used topic).index :=
    ⟨_, List.mem_append_right _ (List.mem_singleton_self _), topic, rfl⟩
  rcases getElem?_append_cases hFound with hOld | ⟨rfl, rfl⟩
  · rcases h.unused_append _ hMade hOld with hUsed | hSuperseded | ⟨msg, -, hSlot, rfl⟩
    · exact .inl hUsed
    · exact .inr hSuperseded
    · rw [hOther] at hSlot
      cases hSlot
      exact .inl (hEarlier ▸ hUses _)
  · have hIndex : (attempt.used found.topic).index = arrivals.length := by rw [hNew, h.count]
    exact .inl (hIndex ▸ hUses _)

theorem Tracks.merged (h : Tracks arrivals s) {s' : Session Cloud Exc} (hCount : s'.arrived = s.arrived + 1)
    (hAttempts : s'.attempts = s.attempts ++ [(s.arrived, attempt)]) (hReset : ∀ topic, s'.merger.slot topic = none) :
    Tracks (arrivals ++ [arrival]) s' := by
  have hSince : since s'.attempts = s.arrived + 1 := by rw [hAttempts, since_append]
  have hLength : (arrivals ++ [arrival]).length = s.arrived + 1 := by
    rw [List.length_append, List.length_singleton, h.count]
  constructor
  · constructor
    · exact .inl (hReset .first)
    · intro before time made after hSplit topic
      rw [hAttempts] at hSplit
      exact h.latest_split hOther hNew hEarlier hSplit topic
    · rw [hAttempts]
      exact h.increasing_new hOther hNew hEarlier
    · rw [hAttempts]
      exact h.once_new hOther hNew hEarlier
    · intro i found hFound
      rw [hAttempts]
      rcases h.unused_new hOther hNew hEarlier hFound with hUsed | hSuperseded
      · exact .inl hUsed
      · exact .inr (.inl hSuperseded)
  · rw [hCount, hLength]
  · intro topic msg hSlot
    rw [hReset] at hSlot
    cases hSlot
  · intro made hMem
    rw [hSince]
    rw [hAttempts] at hMem
    rcases List.mem_append.mp hMem with hOld | hLast
    · have hPast := h.past made hOld
      have hStarted := h.since_le
      rw [← h.count] at hStarted
      omega
    · rw [List.mem_singleton.mp hLast]
      exact Nat.lt_succ_self _
  · exact Nat.le_of_eq (hSince.trans hLength.symm)
  · intro made hMem topic
    rw [hAttempts] at hMem
    rcases List.mem_append.mp hMem with hOld | hLast
    · exact h.before made hOld topic
    · rw [List.mem_singleton.mp hLast]
      exact h.used_le hOther hNew hEarlier topic

end NewAttempt

end Step

/-! ## Every run -/

section Run

variable {Fields Row : Type}

theorem Tracks.receive {arrivals : List (Arrival Cloud)} {s : Session Cloud Exc} (h : Tracks arrivals s)
    (pc2 : Pc2 Cloud Fields Row Exc) (arrival : Arrival Cloud) : Tracks (arrivals ++ [arrival]) (s.receive pc2 arrival) := by
  obtain ⟨hCount, hFill | ⟨earlier, attempt, hOther, hAttempts, hNew, hEarlier, hReset⟩⟩ := receive_cases pc2 s arrival
  · obtain ⟨hOther, hAttempts, hFilled, hOther'⟩ := hFill
    exact h.fill hCount hAttempts hOther hFilled hOther'
  · exact h.merged hOther hNew hEarlier hCount hAttempts hReset

theorem tracks_start : Tracks ([] : List (Arrival Cloud)) (⟨⟨none, none⟩, 0, []⟩ : Session Cloud Exc) where
  onePending := .inl rfl
  latest before time attempt after hSplit := by
    rw [List.nil_eq_append_iff] at hSplit
    cases hSplit.2
  increasing := .nil
  once := .nil
  unused i arrival h := by
    rw [List.getElem?_nil] at h
    cases h
  count := rfl
  filled topic msg hSlot := by
    cases topic <;> cases hSlot
  past := nofun
  since_le := Nat.le_refl 0
  before := nofun

theorem run_tracks (pc2 : Pc2 Cloud Fields Row Exc) (arrivals : List (Arrival Cloud)) : Tracks arrivals (run pc2 arrivals) := by
  induction arrivals using List.reverseRecOn with
  | nil => exact tracks_start
  | append_singleton arrivals arrival ih =>
    rw [run, List.foldl_append, List.foldl_cons, List.foldl_nil]
    exact ih.receive pc2 arrival

theorem run_paired (pc2 : Pc2 Cloud Fields Row Exc) (arrivals : List (Arrival Cloud)) : Paired arrivals (run pc2 arrivals) :=
  (run_tracks pc2 arrivals).toPaired

end Run

end History

end RoveMapping.ColorMapping
