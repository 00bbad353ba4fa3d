import Mathlib.Data.List.DropRight
import RoveMapping.Slam.LidarRecording
import RoveMapping.Slam.PointTimes

/-! # The mesh builder

The node keeps all poses of the odometry and the last scans of the lidar, and writes both where a mesh is built by a
tool; nvblox has a mesh of its own, that is only saved. The callbacks run one after the other.
-/
namespace RoveMapping.Slam
open Fallible
set_option autoImplicit false

structure OdometryMsg where
  sec : Int32
  nanosec : UInt32
  position : Float × Float × Float
  orientation : Float × Float × Float × Float

structure OdometryPose where
  timestamp : ℤ
  position : Float × Float × Float
  orientation : Float × Float × Float × Float

/-- A scan as it is buffered: its time and its points. -/
abbrev BufferedScan := ℤ × List Point

/-- `scans.rec` is `none` where a build has failed to write it. -/
structure BuildFiles where
  trajectory : Option (List OdometryPose)
  recording : Option Recording

inductive BuildError where
  | nvbloxMissing (exc : String)
  | notAdvertised
  | noAnswer
  | saveFailed (message : String)
  | rclpy (exc : String)
  | noOdometry
  | noScans
  | structError
  | buildMesh (rc : ℤ)

def BuildError.message (outputDir : String) : BuildError → String
  | nvbloxMissing exc => "nvblox_msgs not available — install isaac_ros_nvblox or pick a different mesh_method " ++
      "(poisson | tsdf). (" ++ exc ++ ")"
  | notAdvertised => "/nvblox_node/save_ply not advertised — is nvblox_node running? " ++
      "Launch with nvblox.launch.py alongside SLAM."
  | noAnswer => "nvblox save_ply did not return in 30s"
  | saveFailed message => "nvblox save_ply failed: " ++ message
  | rclpy exc => exc
  | noOdometry => "no /odom messages received yet"
  | noScans => "no lidar scans buffered and no recording_dir set"
  | structError => "argument out of range"
  | buildMesh rc => "build_mesh exited " ++ toString rc ++ " (see " ++ outputDir ++ "/build.log)"

/-- What comes of the call of `/nvblox_node/save_ply`. -/
inductive SavePly where
  | missing (exc : String)
  | notAdvertised
  | raised (exc : String)
  | noAnswer
  | failed (message : String)
  | saved

/-- What a build finds outside the node: the answer of nvblox, the exit codes of the tools that it starts and the files
that are there. -/
structure Tools where
  savePly : SavePly
  rc : ℤ
  meshExists : Bool
  colorMeshTool : Bool
  colorRc : ℤ
  coloredExists : Bool

structure MeshBuilder where
  method : String
  outputDir : String
  recordingDir : String
  maxScans : ℤ
  colorize : Bool
  bagPath : String
  urdfPath : String
  poses : List OdometryPose
  scans : List BufferedScan
  files : BuildFiles

/-- What the node is called for. -/
inductive MeshBuilderEvent where
  | odom (msg : OdometryMsg)
  | lidar (msg : StampedCloud)
  | build (tools : Tools)

def stampNs (sec : Int32) (nanosec : UInt32) : ℤ := sec.toInt * 10 ^ 9 + nanosec.toNat

/-- A body longer than its length field is a `struct.error`. -/
def toScan (scan : BufferedScan) : Option Scan :=
  if h : scan.1 < 2 ^ 64 ∧ 8 + 16 * scan.2.length < 2 ^ 32 then some ⟨scan.1, scan.2, h.1, h.2⟩ else none

def writeScans (scans : List BufferedScan) : Option Recording := do writeLidarRecording (← scans.mapM toScan)

namespace MeshBuilder

variable (s : MeshBuilder)

def onOdom (msg : OdometryMsg) : MeshBuilder :=
  { s with poses := s.poses ++ [⟨stampNs msg.sec msg.nanosec, msg.position, msg.orientation⟩] }

/-- The end of `_on_lidar`. -/
def bufferScan (scan : BufferedScan) : MeshBuilder :=
  let scans := s.scans ++ [scan]
  { s with scans := if s.maxScans < scans.length then scans.drop (scans.length - s.maxScans).toNat else scans }

def onLidar (msg : StampedCloud) : Option MeshBuilder := do
  let xyzi ← pc2ToXyzi msg.toPointCloud2
  some (if xyzi.isEmpty then s else s.bufferScan (stampNs msg.sec msg.nanosec, xyzi))

def meshPath : String := s.outputDir ++ "/mesh_" ++ s.method ++ ".ply"

def doBuildNvblox : SavePly → Except BuildError String
  | .missing exc => .error (.nvbloxMissing exc)
  | .notAdvertised => .error .notAdvertised
  | .raised exc => .error (.rclpy exc)
  | .noAnswer => .error .noAnswer
  | .failed message => .error (.saveFailed message)
  | .saved => .ok (s.outputDir ++ "/mesh_nvblox.ply")

def colorizeMesh (tools : Tools) : Option String :=
  if s.bagPath = "" then none
  else if s.urdfPath = "" then none
  else if ¬tools.colorMeshTool then none
  else if tools.colorRc ≠ 0 ∨ ¬tools.coloredExists then none
  else some (s.outputDir ++ "/mesh_" ++ s.method ++ "_colored.ply")

/-- What `_do_build` does after its files are there. -/
def runTool (tools : Tools) : Except BuildError String :=
  if tools.rc ≠ 0 ∨ ¬tools.meshExists then .error (.buildMesh tools.rc)
  else if s.colorize then .ok ((s.colorizeMesh tools).getD s.meshPath)
  else .ok s.meshPath

def doBuild (tools : Tools) : Except BuildError String × BuildFiles :=
  if s.method = "nvblox" then (s.doBuildNvblox tools.savePly, s.files)
  else if s.poses.isEmpty then (.error .noOdometry, s.files)
  else
    let files := { s.files with trajectory := some s.poses }
    if s.recordingDir ≠ "" then (s.runTool tools, files)
    else if s.scans.isEmpty then (.error .noScans, files)
    else
      match writeScans s.scans with
      | none => (.error .structError, { files with recording := none })
      | some recording => (s.runTool tools, { files with recording := some recording })

/-- `success` and `message` of the response. -/
def handleBuild (tools : Tools) : Bool × String :=
  match (s.doBuild tools).1 with
  | .ok path => (true, path)
  | .error exc => (false, exc.message s.outputDir)

/-- An exception in a callback ends the node, but the service answers with it. -/
def receive : MeshBuilderEvent → Option MeshBuilder
  | .odom msg => some (s.onOdom msg)
  | .lidar msg => s.onLidar msg
  | .build tools => some { s with files := (s.doBuild tools).2 }

def run (events : List MeshBuilderEvent) : Option MeshBuilder := events.foldlM receive s

end MeshBuilder

def MeshBuilderEvent.pose? : MeshBuilderEvent → Option OdometryPose
  | .odom msg => some ⟨stampNs msg.sec msg.nanosec, msg.position, msg.orientation⟩
  | _ => none

def MeshBuilderEvent.cloud? : MeshBuilderEvent → Option StampedCloud
  | .lidar msg => some msg
  | _ => none

section Window

theorem rtake_append_singleton {α : Type} (xs : List α) (x : α) (size : ℤ) :
    (if size < ((xs.rtake size.toNat ++ [x]).length : ℤ)
      then (xs.rtake size.toNat ++ [x]).drop ((xs.rtake size.toNat ++ [x]).length - size).toNat
      else xs.rtake size.toNat ++ [x]) = (xs ++ [x]).rtake size.toNat := by
  have hFront : xs.rtake size.toNat ++ [x] = (xs ++ [x]).drop (xs.length - size.toNat) := by
    rw [List.rtake, List.drop_append_of_le_length (Nat.sub_le ..)]
  have hLength : ((xs ++ [x]).drop (xs.length - size.toNat)).length = xs.length + 1 - (xs.length - size.toNat) := by
    rw [List.length_drop, List.length_append, List.length_singleton]
  rw [hFront, hLength, List.rtake, List.length_append, List.length_singleton]
  split
  · rw [List.drop_drop]
    rcases le_or_gt 0 size with hSize | hSize
    · congr 1
      omega
    · have hAll : (xs ++ [x]).length = xs.length + 1 := List.length_append
      rw [List.drop_eq_nil_of_le (by omega), List.drop_eq_nil_of_le (by omega)]
  · congr 1
    omega

end Window

theorem filterMap_cons_toList {α β : Type} (f : α → Option β) (a : α) (xs : List α) :
    (a :: xs).filterMap f = (f a).toList ++ xs.filterMap f := by
  rw [List.filterMap_cons]
  cases f a <;> rfl

namespace MeshBuilder

/-- What the node `s` holds, that was started as `start`. -/
structure Holds (start s : MeshBuilder) (poses : List OdometryPose) (scans : List BufferedScan) : Prop where
  method : s.method = start.method
  outputDir : s.outputDir = start.outputDir
  recordingDir : s.recordingDir = start.recordingDir
  maxScans : s.maxScans = start.maxScans
  poses : s.poses = start.poses ++ poses
  scans : s.scans = (start.scans ++ scans).rtake start.maxScans.toNat

variable {start s s' : MeshBuilder} {poses : List OdometryPose} {scans : List BufferedScan}

theorem Holds.bufferScan (h : Holds start s poses scans) (scan : BufferedScan) :
    Holds start (s.bufferScan scan) poses (scans ++ [scan]) where
  method := h.method
  outputDir := h.outputDir
  recordingDir := h.recordingDir
  maxScans := h.maxScans
  poses := h.poses
  scans := by
    rw [MeshBuilder.bufferScan, ← List.append_assoc, ← rtake_append_singleton, ← h.scans, ← h.maxScans]

/-- The scan that a cloud adds, if any. -/
def scansOf (msg : StampedCloud) : List BufferedScan :=
  match pc2ToXyzi msg.toPointCloud2 with
  | none | some [] => []
  | some xyzi => [(stampNs msg.sec msg.nanosec, xyzi)]

def Readable (msg : StampedCloud) : Prop := (pc2ToXyzi msg.toPointCloud2).isSome

theorem Holds.onLidar (h : Holds start s poses scans) {msg : StampedCloud} (hReadable : Readable msg) :
    ∃ s', s.onLidar msg = some s' ∧ Holds start s' poses (scans ++ scansOf msg) := by
  obtain ⟨xyzi, hDecode⟩ := Option.isSome_iff_exists.mp hReadable
  refine ⟨_, by rw [MeshBuilder.onLidar, hDecode]; rfl, ?_⟩
  rw [scansOf, hDecode]
  cases xyzi with
  | nil => rwa [List.append_nil]
  | cons point rest => exact h.bufferScan _

theorem Holds.receive (h : Holds start s poses scans) {event : MeshBuilderEvent}
    (hReadable : ∀ msg, event.cloud? = some msg → Readable msg) :
    ∃ s', s.receive event = some s' ∧
      Holds start s' (poses ++ event.pose?.toList) (scans ++ event.cloud?.toList.flatMap scansOf) := by
  cases event with
  | odom msg =>
    refine ⟨s.onOdom msg, rfl, h.method, h.outputDir, h.recordingDir, h.maxScans, ?_, ?_⟩
    · rw [MeshBuilder.onOdom, h.poses, List.append_assoc]
      rfl
    · simpa [MeshBuilder.onOdom, MeshBuilderEvent.cloud?] using h.scans
  | lidar msg =>
    obtain ⟨s', hNext, hHolds⟩ := h.onLidar (hReadable msg rfl)
    exact ⟨s', hNext, by simpa [MeshBuilderEvent.cloud?, MeshBuilderEvent.pose?] using hHolds⟩
  | build tools =>
    refine ⟨_, rfl, h.method, h.outputDir, h.recordingDir, h.maxScans, ?_, ?_⟩
    · simpa [MeshBuilderEvent.pose?] using h.poses
    · simpa [MeshBuilderEvent.cloud?] using h.scans

/-- Where every cloud can be read, the node keeps running and holds all poses and the last scans. -/
theorem Holds.run {events : List MeshBuilderEvent} (h : Holds start s poses scans)
    (hReadable : ∀ msg ∈ events.filterMap MeshBuilderEvent.cloud?, Readable msg) :
    ∃ s', s.run events = some s' ∧ Holds start s' (poses ++ events.filterMap MeshBuilderEvent.pose?)
      (scans ++ (events.filterMap MeshBuilderEvent.cloud?).flatMap scansOf) := by
  induction events generalizing s poses scans with
  | nil => exact ⟨s, rfl, by simpa using h⟩
  | cons event events ih =>
    rw [filterMap_cons_toList] at hReadable
    have hHere (msg : StampedCloud) (hMsg : event.cloud? = some msg) : Readable msg :=
      hReadable msg (List.mem_append_left _ (by simp [hMsg]))
    obtain ⟨s₁, hNext, hHolds⟩ := h.receive hHere
    obtain ⟨s', hRun, hEnd⟩ := ih hHolds fun msg hMsg => hReadable msg (List.mem_append_right _ hMsg)
    refine ⟨s', ?_, ?_⟩
    · rw [MeshBuilder.run, List.foldlM_cons, hNext]
      exact hRun
    · rw [filterMap_cons_toList, filterMap_cons_toList, List.flatMap_append, ← List.append_assoc, ← List.append_assoc]
      exact hEnd

theorem poses_receive {event : MeshBuilderEvent} (h : s.receive event = some s') :
    s'.method = s.method ∧ s'.poses = s.poses ++ event.pose?.toList := by
  cases event with
  | odom msg =>
    cases h
    exact ⟨rfl, rfl⟩
  | lidar msg =>
    obtain ⟨xyzi, -, hNext⟩ := Option.bind_eq_some_iff.mp h
    cases hNext
    rw [show (MeshBuilderEvent.lidar msg).pose? = none from rfl, Option.toList_none, List.append_nil]
    split <;> exact ⟨rfl, rfl⟩
  | build tools =>
    cases h
    exact ⟨rfl, (List.append_nil _).symm⟩

/-- A node that still runs holds all poses. -/
theorem poses_run {events : List MeshBuilderEvent} (h : s.run events = some s') :
    s'.method = s.method ∧ s'.poses = s.poses ++ events.filterMap MeshBuilderEvent.pose? := by
  induction events generalizing s with
  | nil =>
    cases h
    exact ⟨rfl, (List.append_nil _).symm⟩
  | cons event events ih =>
    rw [run, List.foldlM_cons] at h
    obtain ⟨s₁, hNext, hRest⟩ := Option.bind_eq_some_iff.mp h
    obtain ⟨hMethod, hPoses⟩ := ih hRest
    obtain ⟨hMethod₁, hPoses₁⟩ := poses_receive hNext
    exact ⟨hMethod.trans hMethod₁, by rw [hPoses, hPoses₁, filterMap_cons_toList, List.append_assoc]⟩

end MeshBuilder

section Build

/-- A record of the file has the time and the points of a buffered scan. -/
structure Recorded (record : Record) (scan : BufferedScan) : Prop where
  timestamp : (record.timestamp : ℤ) = scan.1
  pointCount : record.pointCount = scan.2.length
  points : record.points = tobytes scan.2

/-- What the fields of a record can hold. -/
def Storable (scan : BufferedScan) : Prop := (0 ≤ scan.1 ∧ scan.1 < 2 ^ 64) ∧ 8 + 16 * scan.2.length < 2 ^ 32

def Scan.buffered (scan : Scan) : BufferedScan := (scan.timestamp, scan.points)

theorem toScan_eq {scan : BufferedScan} (h : Storable scan) : ∃ stored, toScan scan = some stored ∧ stored.buffered = id scan :=
  ⟨_, dif_pos ⟨h.1.2, h.2⟩, rfl⟩

/-- What is written can be walked through, record by record and scan by scan. -/
theorem writeScans_spec {scans : List BufferedScan} (h : ∀ scan ∈ scans, Storable scan) :
    ∃ recording records, writeScans scans = some recording ∧ walk recording.payload = some records ∧
      List.Forall₂ Recorded records scans := by
  obtain ⟨stored, hStored, hMap⟩ := mapM_of_forall scans fun scan hScan => toScan_eq (h scan hScan)
  rw [List.map_id] at hMap
  have hStamps : ∀ scan ∈ stored, 0 ≤ scan.timestamp := fun scan hScan =>
    (h scan.buffered (hMap ▸ List.mem_map_of_mem hScan)).1.1
  refine ⟨⟨payloadOf stored, indexOf stored⟩, recordsFrom 0 stored, ?_, walkFrom_payloadOf hStamps 0, ?_⟩
  · rw [writeScans, hStored]
    exact writeLidarRecording_eq hStamps
  · rw [← hMap, List.forall₂_map_right_iff]
    exact (carries_recordsFrom hStamps 0).imp fun record scan h => ⟨h.timestamp, h.pointCount, h.points⟩

/-- What a build with a tool writes. -/
theorem doBuild_files {s : MeshBuilder} (tools : Tools) (hMethod : s.method ≠ "nvblox") (hPoses : s.poses ≠ [])
    (hDir : s.recordingDir = "") (hScans : s.scans ≠ []) {recording : Recording} (hWrite : writeScans s.scans = some recording) :
    s.doBuild tools = (s.runTool tools, ⟨some s.poses, some recording⟩) := by
  rw [MeshBuilder.doBuild, if_neg hMethod, if_neg (by simpa using hPoses), if_neg (by simpa using hDir),
    if_neg (by simpa using hScans), hWrite]

theorem trajectory_doBuild {s : MeshBuilder} (tools : Tools) (hMethod : s.method ≠ "nvblox") (hPoses : s.poses ≠ []) :
    (s.doBuild tools).2.trajectory = some s.poses := by
  rw [MeshBuilder.doBuild, if_neg hMethod, if_neg (by simpa using hPoses)]
  dsimp only
  split
  · rfl
  · split
    · rfl
    · split <;> rfl

end Build

end RoveMapping.Slam
