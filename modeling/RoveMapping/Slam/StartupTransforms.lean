import Mathlib.Data.List.Induction
import Mathlib.Data.List.Pairwise

/-! # The transforms of the SLAM node

`onLidar` and `publishStartupTf` of `RoveSlamNode`. Callbacks run one after another; what the pipeline answers to
a scan is part of the event, and so is the reading of the node's clock in nanoseconds.
-/
namespace RoveMapping.Slam
set_option autoImplicit false

structure TransformStamped (T : Type) where
  stamp : ℕ
  frameId : String
  childFrameId : String
  transform : T

structure Odometry (Pose : Type) where
  stamp : ℕ
  frameId : String
  childFrameId : String
  pose : Pose

inductive Message (Pose T : Type) where
  | tf (message : TransformStamped T)
  | odom (message : Odometry Pose)

/-- The frame parameters, and `eigenToTransform`. -/
structure SlamNode (Pose T : Type) where
  mapFrame : String
  odomFrame : String
  baseFrame : String
  identity : T
  eigenToTransform : Pose → T

/-- `last_stamp_`, and whether `startup_tf_timer_` has been cancelled. -/
structure SlamState where
  lastStamp : ℕ
  cancelled : Bool

/-- A lidar message: whether its frame has points, and the answer of `processLidar` if it is asked. -/
structure LidarScan (Pose : Type) where
  hasPoints : Bool
  answer : Option Pose

def LidarScan.pose? {Pose : Type} (scan : LidarScan Pose) : Option Pose := if scan.hasPoints then scan.answer else none

inductive Event (Pose : Type) where
  | lidar (scan : LidarScan Pose) (now : ℕ)
  | startupTimer (now : ℕ)

def Event.now {Pose : Type} : Event Pose → ℕ
  | lidar _ now => now
  | startupTimer now => now

section Model

variable {Pose T : Type} (node : SlamNode Pose T)

def onLidar (s : SlamState) (scan : LidarScan Pose) (now : ℕ) : SlamState × List (Message Pose T) :=
  if ¬scan.hasPoints then (s, [])
  else
    match scan.answer with
    | none => (s, [])
    | some pose =>
      ({ s with lastStamp := now },
        [.tf ⟨now, node.mapFrame, node.odomFrame, node.identity⟩,
          .tf ⟨now, node.odomFrame, node.baseFrame, node.eigenToTransform pose⟩,
          .odom ⟨now, node.odomFrame, node.baseFrame, pose⟩])

def publishStartupTf (s : SlamState) (now : ℕ) : SlamState × List (Message Pose T) :=
  if 0 < s.lastStamp then ({ s with cancelled := true }, [])
  else
    (s, [.tf ⟨now, node.mapFrame, node.odomFrame, node.identity⟩, .tf ⟨now, node.odomFrame, node.baseFrame, node.identity⟩])

/-- A cancelled timer does not fire. -/
def handle (s : SlamState) : Event Pose → SlamState × List (Message Pose T)
  | .lidar scan now => onLidar node s scan now
  | .startupTimer now => if s.cancelled then (s, []) else publishStartupTf node s now

def stateAfter (events : List (Event Pose)) : SlamState := events.foldl (fun s event => (handle node s event).1) ⟨0, false⟩

/-- What the callback of `event` publishes after those of `before`. -/
def published (before : List (Event Pose)) (event : Event Pose) : List (Message Pose T) :=
  (handle node (stateAfter node before) event).2

/-- `onLidar` has broadcast a transform of the base that comes from a scan. -/
def ScanDerived (events : List (Event Pose)) : Prop :=
  ∃ before scan now after pose, events = before ++ .lidar scan now :: after ∧
    .tf ⟨now, node.odomFrame, node.baseFrame, node.eigenToTransform pose⟩ ∈ published node before (.lidar scan now) ∧
    .odom ⟨now, node.odomFrame, node.baseFrame, pose⟩ ∈ published node before (.lidar scan now)

/-- Once a transform has come from a scan, the startup timer broadcasts no identity for the base. -/
def YieldsToSlam (events : List (Event Pose)) : Prop :=
  ∀ before now after, events = before ++ .startupTimer now :: after → ScanDerived node before →
    ∀ stamp, .tf ⟨stamp, node.odomFrame, node.baseFrame, node.identity⟩ ∉ published node before (.startupTimer now)

/-! ## The scans that give a pose -/

/-- The clock at the scans that have given a pose. -/
def poseTimes (events : List (Event Pose)) : List ℕ :=
  events.filterMap fun event =>
    match event with
    | .lidar scan now => scan.pose?.map fun _ => now
    | .startupTimer _ => none

theorem onLidar_of_none (s : SlamState) {scan : LidarScan Pose} (h : scan.pose? = none) (now : ℕ) :
    onLidar node s scan now = (s, []) := by
  rw [LidarScan.pose?] at h
  rw [onLidar]
  split
  · rfl
  · rename_i hPoints
    rw [if_pos (not_not.mp hPoints)] at h
    rw [h]

theorem onLidar_of_some (s : SlamState) {scan : LidarScan Pose} {pose : Pose} (h : scan.pose? = some pose) (now : ℕ) :
    onLidar node s scan now =
      ({ s with lastStamp := now },
        [.tf ⟨now, node.mapFrame, node.odomFrame, node.identity⟩,
          .tf ⟨now, node.odomFrame, node.baseFrame, node.eigenToTransform pose⟩,
          .odom ⟨now, node.odomFrame, node.baseFrame, pose⟩]) := by
  rw [LidarScan.pose?] at h
  rw [onLidar]
  split at h
  · rename_i hPoints
    rw [if_neg (not_not.mpr hPoints), h]
  · cases h

variable {node}

theorem scanDerived_iff {events : List (Event Pose)} : ScanDerived node events ↔ poseTimes events ≠ [] := by
  constructor
  · rintro ⟨before, scan, now, after, pose, rfl, -, hOdom⟩
    cases hPose : scan.pose? with
    | none =>
      have hNothing : published node before (.lidar scan now) = [] :=
        congrArg Prod.snd (onLidar_of_none node (stateAfter node before) hPose now)
      rw [hNothing] at hOdom
      cases hOdom
    | some found => simp [poseTimes, hPose]
  · intro h
    obtain ⟨time, hTime⟩ := List.exists_mem_of_ne_nil _ h
    obtain ⟨event, hEvent, hNow⟩ := List.mem_filterMap.mp hTime
    obtain ⟨before, after, rfl⟩ := List.append_of_mem hEvent
    cases event with
    | startupTimer now => cases hNow
    | lidar scan now =>
      obtain ⟨pose, hPose, -⟩ := Option.map_eq_some_iff.mp hNow
      have hMessages : published node before (.lidar scan now) = _ :=
        congrArg Prod.snd (onLidar_of_some node (stateAfter node before) hPose now)
      refine ⟨before, scan, now, after, pose, rfl, ?_, ?_⟩
      · rw [hMessages]
        simp
      · rw [hMessages]
        simp

/-- The node after `events`: the stamp is that of the last pose, and the timer stops on a positive one. -/
structure Follows (events : List (Event Pose)) (s : SlamState) : Prop where
  stamp : s.lastStamp = (poseTimes events).getLast?.getD 0
  stopped : s.cancelled = true → ∃ time ∈ poseTimes events, 0 < time

theorem poseTimes_append (events : List (Event Pose)) (event : Event Pose) :
    poseTimes (events ++ [event]) = poseTimes events ++ poseTimes [event] := List.filterMap_append

theorem Follows.of_same {events : List (Event Pose)} {s : SlamState} (h : Follows events s) {event : Event Pose}
    (hNone : poseTimes [event] = []) : Follows (events ++ [event]) s := by
  have hTimes : poseTimes (events ++ [event]) = poseTimes events := by rw [poseTimes_append, hNone, List.append_nil]
  constructor
  · rw [hTimes]
    exact h.stamp
  · rw [hTimes]
    exact h.stopped

theorem Follows.lidar {events : List (Event Pose)} {s : SlamState} (h : Follows events s) (scan : LidarScan Pose) (now : ℕ) :
    Follows (events ++ [.lidar scan now]) (handle node s (.lidar scan now)).1 := by
  rw [handle]
  cases hPose : scan.pose? with
  | none =>
    rw [onLidar_of_none node s hPose]
    exact h.of_same (by simp [poseTimes, hPose])
  | some pose =>
    have hTimes : poseTimes (events ++ [.lidar scan now]) = poseTimes events ++ [now] := by
      rw [poseTimes_append]
      simp [poseTimes, hPose]
    rw [onLidar_of_some node s hPose]
    constructor
    · rw [hTimes, List.getLast?_concat]
      rfl
    · intro hStopped
      obtain ⟨time, hTime, hPos⟩ := h.stopped hStopped
      rw [hTimes]
      exact ⟨time, List.mem_append_left _ hTime, hPos⟩

theorem Follows.startupTimer {events : List (Event Pose)} {s : SlamState} (h : Follows events s) (now : ℕ) :
    Follows (events ++ [.startupTimer now]) (handle node s (.startupTimer now)).1 := by
  rw [handle]
  split
  · exact h.of_same rfl
  · rw [publishStartupTf]
    split
    · rename_i hStamp
      have hStopped : Follows events { s with cancelled := true } := by
        refine ⟨h.stamp, fun _ => ?_⟩
        rw [h.stamp] at hStamp
        cases hLast : (poseTimes events).getLast? with
        | none =>
          rw [hLast] at hStamp
          cases hStamp
        | some time =>
          rw [hLast] at hStamp
          exact ⟨time, List.mem_of_getLast? hLast, hStamp⟩
      exact hStopped.of_same rfl
    · exact h.of_same rfl

theorem stateAfter_follows (node : SlamNode Pose T) (events : List (Event Pose)) : Follows events (stateAfter node events) := by
  induction events using List.reverseRecOn with
  | nil => exact ⟨rfl, nofun⟩
  | append_singleton events event ih =>
    rw [stateAfter, List.foldl_append, List.foldl_cons, List.foldl_nil]
    cases event with
    | lidar scan now => exact ih.lidar scan now
    | startupTimer now => exact ih.startupTimer now

/-! ## When the heartbeat yields -/

theorem sorted_poseTimes {events : List (Event Pose)} (hClock : (events.map Event.now).Pairwise (· ≤ ·)) :
    (poseTimes events).Pairwise (· ≤ ·) := by
  rw [List.pairwise_map] at hClock
  rw [poseTimes, List.pairwise_filterMap]
  refine hClock.imp ?_
  intro a b hab time hTime time' hTime'
  have hNow : ∀ {event : Event Pose} {time : ℕ}, (match event with
      | .lidar scan now => scan.pose?.map fun _ => now
      | .startupTimer _ => none) = some time → time = event.now := by
    intro event time h
    cases event with
    | startupTimer now => cases h
    | lidar scan now =>
      obtain ⟨_, -, rfl⟩ := Option.map_eq_some_iff.mp h
      rfl
  rw [hNow hTime, hNow hTime']
  exact hab

theorem exists_pos_iff {times : List ℕ} (hSorted : times.Pairwise (· ≤ ·)) :
    (∃ time ∈ times, 0 < time) ↔ 0 < times.getLast?.getD 0 := by
  rcases times.eq_nil_or_concat with rfl | ⟨front, last, rfl⟩
  · simp
  · rw [List.concat_eq_append] at hSorted ⊢
    rw [List.getLast?_concat, Option.getD_some]
    constructor
    · rintro ⟨time, hTime, hPos⟩
      rcases List.mem_append.mp hTime with hFront | hLast
      · have hLe := (List.pairwise_append.mp hSorted).2.2 time hFront last (List.mem_singleton_self _)
        omega
      · rw [List.mem_singleton.mp hLast] at hPos
        exact hPos
    · intro hPos
      exact ⟨last, by simp, hPos⟩

/-- The timer is silent exactly after a pose at a positive time. -/
theorem published_startupTimer_iff {before : List (Event Pose)} (hClock : (before.map Event.now).Pairwise (· ≤ ·)) (now : ℕ) :
    (∀ stamp, .tf ⟨stamp, node.odomFrame, node.baseFrame, node.identity⟩ ∉ published node before (.startupTimer now)) ↔
      ∃ time ∈ poseTimes before, 0 < time := by
  obtain ⟨hStamp, hStopped⟩ := stateAfter_follows node before
  have hPos := exists_pos_iff (sorted_poseTimes hClock)
  rw [← hStamp] at hPos
  rw [published, handle]
  split
  · rename_i hCancelled
    exact iff_of_true (fun _ => List.not_mem_nil) (hStopped hCancelled)
  · rw [publishStartupTf, hPos]
    split
    · rename_i hLate
      exact iff_of_true (fun _ => List.not_mem_nil) hLate
    · rename_i hEarly
      refine iff_of_false (fun hSilent => hSilent now ?_) hEarly
      exact List.mem_cons_of_mem _ (List.mem_singleton_self _)

/-- A tick after a pose-giving scan is harmless when one of these scans had a positive clock. -/
theorem yieldsToSlam_iff (node : SlamNode Pose T) {events : List (Event Pose)}
    (hClock : (events.map Event.now).Pairwise (· ≤ ·)) : YieldsToSlam node events ↔
      ∀ before now after, events = before ++ .startupTimer now :: after → poseTimes before ≠ [] →
        ∃ time ∈ poseTimes before, 0 < time := by
  have hBefore : ∀ before now after, events = before ++ .startupTimer now :: after →
      (before.map Event.now).Pairwise (· ≤ ·) := by
    rintro before now after rfl
    rw [List.map_append] at hClock
    exact (List.pairwise_append.mp hClock).1
  constructor
  · intro h before now after hEvents hPose
    exact (published_startupTimer_iff (hBefore _ _ _ hEvents) now).mp (h before now after hEvents (scanDerived_iff.mpr hPose))
  · intro h before now after hEvents hDerived
    exact (published_startupTimer_iff (hBefore _ _ _ hEvents) now).mpr (h before now after hEvents (scanDerived_iff.mp hDerived))

end Model

/-! ## A replay that starts before its clock -/

section Replay

def plainNode : SlamNode ℕ ℕ where
  mapFrame := "new_map"
  odomFrame := "odom"
  baseFrame := "base_link"
  identity := 0
  eigenToTransform pose := pose

/-- A scan and a tick before the first `/clock` message. -/
def earlyScan : List (Event ℕ) := [.lidar ⟨true, some 7⟩ 0, .startupTimer 0]

theorem yieldsToSlam_iff_early_scan : YieldsToSlam plainNode earlyScan ↔
    ∀ before now after, earlyScan = before ++ .startupTimer now :: after → poseTimes before ≠ [] →
      ∃ time ∈ poseTimes before, 0 < time :=
  yieldsToSlam_iff plainNode (by decide)

/-- The robot's pose jumps back to the origin. -/
theorem yieldsToSlam_early_scan : ¬∀ (node : SlamNode ℕ ℕ) (events : List (Event ℕ)),
    (events.map Event.now).Pairwise (· ≤ ·) → YieldsToSlam node events := by
  intro hAlways
  have hYields := hAlways plainNode earlyScan (by decide)
  refine hYields [.lidar ⟨true, some 7⟩ 0] 0 [] rfl (scanDerived_iff.mpr (by decide)) 0 ?_
  exact List.mem_cons_of_mem _ (List.mem_singleton_self _)

end Replay

end RoveMapping.Slam
