import RoveMapping.Library.Binary32
import RoveMapping.Livox.CacheIndex
import RoveMapping.Livox.LidarDataQueue

/-! # From the raw packets to the frames

`PubHandler` collects the points of each lidar and cuts them into frames: by the time stamps of the points where the
lidars are synchronised, else by the clock of the computer. Overrunning the 32 places of `frame_` is `none`.
-/
namespace RoveMapping.Livox
set_option autoImplicit false

structure CartesianPoint where
  x : ℤ
  y : ℤ
  z : ℤ
  reflectivity : UInt8
  tag : UInt8

structure SpherPoint where
  depth : ℕ
  theta : ℕ
  phi : ℕ
  reflectivity : UInt8
  tag : UInt8

/-- The points of a packet, read in the layout of its `data_type`. -/
inductive RawData where
  | cartesianHigh (points : List CartesianPoint)
  | cartesianLow (points : List CartesianPoint)
  | spherical (points : List SpherPoint)
  | unknown (count : ℕ)

def RawData.dotNum : RawData → ℕ
  | .cartesianHigh points | .cartesianLow points => points.length
  | .spherical points => points.length
  | .unknown count => count

structure RawPacket where
  handle : UInt32
  extrinsicEnable : Bool
  lineNum : ℕ
  timeStamp : UInt64
  pointInterval : UInt64
  data : RawData

inductive DevType where
  | industrialHAP
  | mid360
  | other

def kTimestampTypeNoSync : UInt8 := 0
def kTimestampTypeGptpOrPtp : UInt8 := 1
def kTimestampTypeGps : UInt8 := 2

structure EthernetPacket where
  devType : DevType
  timeType : UInt8
  timeInterval : UInt16
  timestamp : UInt64
  data : RawData

structure ExtParameter where
  roll : Float32
  pitch : Float32
  yaw : Float32
  x : ℤ
  y : ℤ
  z : ℤ

structure ExtParameterDetailed where
  trans : Fin 3 → Float32
  rotation : Fin 3 → Fin 3 → Float32

section Points

scoped instance neZero_three : NeZero 3 := ⟨three_ne_zero⟩

/-- The rotation with which a `LidarPubHandler` starts. -/
def defaultExtrinsic : ExtParameterDetailed where
  trans _ := 0
  rotation := ![![1, 0, 0], ![0, 1, 1], ![0, 0, 1]]

def piDouble : Float := 3.14159265358979323846

def radians (degrees : Float32) : Float := Binary32.toDouble degrees * piDouble / 180

def setLidarsExtParam (param : ExtParameter) : ExtParameterDetailed :=
  let cosRoll := Float.cos (radians param.roll)
  let cosPitch := Float.cos (radians param.pitch)
  let cosYaw := Float.cos (radians param.yaw)
  let sinRoll := Float.sin (radians param.roll)
  let sinPitch := Float.sin (radians param.pitch)
  let sinYaw := Float.sin (radians param.yaw)
  { trans := ![Float32.ofInt param.x, Float32.ofInt param.y, Float32.ofInt param.z]
    rotation := fun row column => Binary32.ofDouble <|
      (![![cosPitch * cosYaw, sinRoll * sinPitch * cosYaw - cosRoll * sinYaw, cosRoll * sinPitch * cosYaw + sinRoll * sinYaw],
        ![cosPitch * sinYaw, sinRoll * sinPitch * sinYaw + cosRoll * cosYaw, cosRoll * sinPitch * sinYaw - sinRoll * cosYaw],
        ![-sinPitch, sinRoll * cosPitch, cosRoll * cosPitch]] row column) }

/-- A row of the extrinsic in `float`, scaled in `double`. -/
def cartesian (extrinsic : ExtParameterDetailed) (scale : Float) (enable : Bool) (raw : CartesianPoint) (row : Fin 3) : Float32 :=
  Binary32.ofDouble <|
    if enable then Float.ofInt (![raw.x, raw.y, raw.z] row) / scale
    else Binary32.toDouble (Float32.ofInt raw.x * extrinsic.rotation row 0 + Float32.ofInt raw.y * extrinsic.rotation row 1 +
      Float32.ofInt raw.z * extrinsic.rotation row 2 + extrinsic.trans row) / scale

def spherical (extrinsic : ExtParameterDetailed) (enable : Bool) (raw : SpherPoint) (row : Fin 3) : Float32 :=
  let radius := Float.ofNat raw.depth / 1000
  let theta := Float.ofNat raw.theta / 100 / 180 * piDouble
  let phi := Float.ofNat raw.phi / 100 / 180 * piDouble
  let src := ![radius * Float.sin theta * Float.cos phi, radius * Float.sin theta * Float.sin phi, radius * Float.cos theta]
  Binary32.ofDouble <|
    if enable then src row
    else src 0 * Binary32.toDouble (extrinsic.rotation row 0) + src 1 * Binary32.toDouble (extrinsic.rotation row 1) +
      src 2 * Binary32.toDouble (extrinsic.rotation row 2) + Binary32.toDouble (extrinsic.trans row) / 1000

/-- What the three loops over the points of a packet do with the `i`-th one. -/
def pointOf (packet : RawPacket) (coordinate : Fin 3 → Float32) (reflectivity tag : UInt8) (i : ℕ) : PointXyzlt where
  x := coordinate 0
  y := coordinate 1
  z := coordinate 2
  intensity := reflectivity.toFloat32
  tag := tag
  line := UInt8.ofNat (i % packet.lineNum)
  offsetTime := packet.timeStamp + UInt64.ofNat i * packet.pointInterval

def pointCloudProcess (extrinsic : ExtParameterDetailed) (packet : RawPacket) : List PointXyzlt :=
  match packet.data with
  | .cartesianHigh points => points.mapIdx fun i raw =>
      pointOf packet (cartesian extrinsic 1000 packet.extrinsicEnable raw) raw.reflectivity raw.tag i
  | .cartesianLow points => points.mapIdx fun i raw =>
      pointOf packet (cartesian extrinsic 100 packet.extrinsicEnable raw) raw.reflectivity raw.tag i
  | .spherical points => points.mapIdx fun i raw =>
      pointOf packet (spherical extrinsic packet.extrinsicEnable raw) raw.reflectivity raw.tag i
  | .unknown _ => []

end Points

structure LidarPubHandler where
  pointsClouds : List PointXyzlt
  extrinsic : ExtParameterDetailed
  isSetExtrinsicParams : Bool

namespace LidarPubHandler

def initial : LidarPubHandler := ⟨[], defaultExtrinsic, false⟩

variable (handler : LidarPubHandler)

def setLidarsExtParam (param : ExtParameter) : LidarPubHandler :=
  if handler.isSetExtrinsicParams then handler
  else { handler with extrinsic := Livox.setLidarsExtParam param, isSetExtrinsicParams := true }

def getLidarBaseTime : UInt64 := (handler.pointsClouds.head?.map PointXyzlt.offsetTime).getD 0
def getRecentTimeStamp : UInt64 := (handler.pointsClouds.getLast?.map PointXyzlt.offsetTime).getD 0

end LidarPubHandler

structure PointCloudConfig where
  publishInterval : UInt64
  publishIntervalTolerance : UInt64
  publishIntervalMs : UInt64

def kNsTolerantFrameTimeDeviation : UInt64 := 1000000
def kRatioOfMsToNs : UInt64 := 1000000

def setPointCloudConfig (publishFreq : Float) : PointCloudConfig :=
  let publishInterval := (1000000000 / (publishFreq * 10) * 10).toUInt64
  ⟨publishInterval, publishInterval - kNsTolerantFrameTimeDeviation, publishInterval / kRatioOfMsToNs⟩

/-- The entries of `lidar_point` and `base_time` up to `lidar_num`. -/
abbrev Frame := List (PointPacket × UInt64)

/-- `handles` are the keys of `lidar_process_handlers_`, in order. -/
structure PubHandler where
  config : PointCloudConfig
  isTimestampSync : Bool
  rawPacketQueue : List RawPacket
  lidarExtrinsics : UInt32 → Option ExtParameter
  handles : List UInt32
  handlers : UInt32 → LidarPubHandler
  lastPubTime : Option ℤ

namespace PubHandler

def initial (config : PointCloudConfig) (lidarExtrinsics : UInt32 → Option ExtParameter) : PubHandler where
  config := config
  isTimestampSync := false
  rawPacketQueue := []
  lidarExtrinsics := lidarExtrinsics
  handles := []
  handlers _ := .initial
  lastPubTime := none

def getEthPacketTimestamp (timeType : UInt8) (timestamp now : UInt64) : UInt64 :=
  if timeType = kTimestampTypeGptpOrPtp ∨ timeType = kTimestampTypeGps then timestamp else now

variable (s : PubHandler)

def lineNum : DevType → ℕ
  | .industrialHAP => 6
  | .mid360 => 4
  | .other => 1

/-- The point packets of `OnLivoxLidarPointCloudCallback`; a packet without points divides by zero. -/
def onPointCloud (handle : UInt32) (packet : EthernetPacket) (now : UInt64) : Option PubHandler :=
  if packet.data.dotNum = 0 then none
  else
    let raw : RawPacket :=
      { handle := handle
        extrinsicEnable := false
        lineNum := lineNum packet.devType
        timeStamp := getEthPacketTimestamp packet.timeType packet.timestamp now
        pointInterval := UInt64.ofNat (packet.timeInterval.toNat * 100 / packet.data.dotNum)
        data := packet.data }
    some { s with
      isTimestampSync := packet.timeType ≠ kTimestampTypeNoSync
      rawPacketQueue := s.rawPacketQueue ++ [raw] }

/-- What an IMU packet does here; every packet says whether the lidars are synchronised. -/
def onImu (timeType : UInt8) : PubHandler := { s with isTimestampSync := timeType ≠ kTimestampTypeNoSync }

def setHandler (id : UInt32) (handler : LidarPubHandler) : PubHandler :=
  { s with handlers := Function.update s.handlers id handler }

/-- The points of a lidar are moved into the next place of the frame; without points the place is kept for the next. -/
def fillFrame (state : PubHandler × Frame) (id : UInt32) : Option (PubHandler × Frame) :=
  let handler := state.1.handlers id
  if state.2.length < kMaxSourceLidar then
    some (state.1.setHandler id { handler with pointsClouds := [] },
      if handler.pointsClouds.isEmpty then state.2
      else state.2 ++ [(⟨id, kLivoxLidarType, handler.pointsClouds⟩, handler.getLidarBaseTime)])
  else none

/-- `CheckTimer` with the frame that it hands to the callback; an empty frame is as good as none. -/
def checkTimer (id : UInt32) (now : ℤ) : Option (PubHandler × Frame) :=
  if s.isTimestampSync then
    let handler := s.handlers id
    let recentTimeMs := handler.getRecentTimeStamp / kRatioOfMsToNs
    if recentTimeMs % s.config.publishIntervalMs ≠ 0 ∨ recentTimeMs = 0 then some (s, [])
    else if handler.getRecentTimeStamp - handler.getLidarBaseTime < s.config.publishIntervalTolerance then some (s, [])
    else fillFrame (s, []) id
  else
    match s.lastPubTime with
    | none => some ({ s with lastPubTime := some now }, [])
    | some last =>
      if now - last < s.config.publishInterval.toNat then some (s, [])
      else s.handles.foldlM fillFrame ({ s with lastPubTime := some (last + s.config.publishInterval.toNat) }, [])

def withExtrinsic (id : UInt32) : LidarPubHandler :=
  match s.lidarExtrinsics id with
  | some param => (s.handlers id).setLidarsExtParam param
  | none => s.handlers id

/-- The points that a packet adds to those of its lidar. -/
def newPoints (packet : RawPacket) : List PointXyzlt := pointCloudProcess (s.withExtrinsic packet.handle).extrinsic packet

/-- The part of `RawDataProcess` before `CheckTimer`, for the packet at the front of the queue. -/
def collect (packet : RawPacket) (rest : List RawPacket) : PubHandler :=
  let handler := s.withExtrinsic packet.handle
  { s.setHandler packet.handle { handler with pointsClouds := handler.pointsClouds ++ s.newPoints packet } with
    rawPacketQueue := rest
    handles := if packet.handle ∈ s.handles then s.handles else s.handles.orderedInsert (· ≤ ·) packet.handle }

/-- One packet of `RawDataProcess`. -/
def rawDataProcess (now : ℤ) : Option (PubHandler × Frame) :=
  match s.rawPacketQueue with
  | [] => none
  | packet :: rest => (s.collect packet rest).checkTimer packet.handle now

section Conservation

def pending (id : UInt32) : List PointXyzlt := (s.handlers id).pointsClouds

/-- The packets of one lidar in a frame, as its queue will store them. -/
def framed (frame : Frame) (id : UInt32) : List StoragePacket :=
  (frame.filter fun entry => entry.1.handle = id).map fun entry => entry.1.stored entry.2

def points (packets : List StoragePacket) : List PointXyzlt := packets.flatMap StoragePacket.points

theorem points_append (packets packets' : List StoragePacket) : points (packets ++ packets') = points packets ++ points packets' :=
  List.flatMap_append

theorem framed_append (frame frame' : Frame) (id : UInt32) : framed (frame ++ frame') id = framed frame id ++ framed frame' id := by
  simp [framed]

variable {s} {s' : PubHandler} {frame frame' : Frame}

theorem pending_setHandler (id id' : UInt32) (handler : LidarPubHandler) :
    (s.setHandler id handler).pending id' = if id' = id then handler.pointsClouds else s.pending id' := by
  simp only [pending, setHandler, Function.update_apply]
  split <;> rfl

/-- No point is lost or doubled between the lidars and a frame. -/
theorem fillFrame_conserves {id : UInt32} (h : fillFrame (s, frame) id = some (s', frame')) (id' : UInt32) :
    points (framed frame' id') ++ s'.pending id' = points (framed frame id') ++ s.pending id' := by
  rw [fillFrame] at h
  split at h
  · cases h
    rw [pending_setHandler]
    by_cases hEmpty : (s.handlers id).pointsClouds.isEmpty
    · rw [if_pos hEmpty]
      split
      · rename_i hId
        rw [hId, pending, List.isEmpty_iff.mp hEmpty]
      · rfl
    · rw [if_neg hEmpty, framed_append, points_append, List.append_assoc]
      congr 1
      by_cases hId : id' = id
      · simp [framed, points, hId, pending, PointPacket.stored]
      · simp [framed, points, hId, Ne.symm hId]
  · cases h

theorem foldlM_fillFrame_conserves (handles : List UInt32) {state : PubHandler × Frame}
    (h : handles.foldlM fillFrame state = some (s', frame')) (id : UInt32) :
    points (framed frame' id) ++ s'.pending id = points (framed state.2 id) ++ state.1.pending id := by
  induction handles generalizing state with
  | nil =>
    cases h
    rfl
  | cons handle rest ih =>
    rw [List.foldlM_cons] at h
    obtain ⟨next, hFill, hRest⟩ := Option.bind_eq_some_iff.mp h
    rw [ih hRest, fillFrame_conserves hFill]

theorem checkTimer_conserves {id : UInt32} {now : ℤ} (h : s.checkTimer id now = some (s', frame)) (id' : UInt32) :
    points (framed frame id') ++ s'.pending id' = s.pending id' := by
  rw [checkTimer] at h
  split at h
  · simp only at h
    split at h
    · cases h
      rfl
    · split at h
      · cases h
        rfl
      · exact fillFrame_conserves h id'
  · split at h
    · cases h
      rfl
    · split at h
      · cases h
        rfl
      · exact foldlM_fillFrame_conserves _ h id'

theorem pending_withExtrinsic (id : UInt32) : (s.withExtrinsic id).pointsClouds = s.pending id := by
  rw [withExtrinsic]
  split
  · rw [LidarPubHandler.setLidarsExtParam]
    split <;> rfl
  · rfl

theorem pending_collect (packet : RawPacket) (rest : List RawPacket) (id : UInt32) :
    (s.collect packet rest).pending id = s.pending id ++ if id = packet.handle then s.newPoints packet else [] := by
  have hPending : (s.collect packet rest).pending id = (s.setHandler packet.handle { s.withExtrinsic packet.handle with
      pointsClouds := (s.withExtrinsic packet.handle).pointsClouds ++ s.newPoints packet }).pending id := rfl
  rw [hPending, pending_setHandler, pending_withExtrinsic]
  split
  · rename_i hId
    rw [hId]
  · rw [List.append_nil]

end Conservation

section Frames

/-- An entry is the points of a lidar since its last frame, with the time of the first as `base_time`. -/
def EntryOk (entry : PointPacket × UInt64) : Prop :=
  entry.1.lidarType = kLivoxLidarType ∧ entry.1.points.head?.map PointXyzlt.offsetTime = some entry.2

structure FrameOk (frame : Frame) : Prop where
  places : frame.length ≤ kMaxSourceLidar
  entries : ∀ entry ∈ frame, EntryOk entry
  distinct : (frame.map fun entry => entry.1.handle).Nodup

theorem frameOk_nil : FrameOk [] := ⟨Nat.zero_le _, nofun, List.nodup_nil⟩

variable {s} {s' : PubHandler} {frame frame' : Frame}

theorem handles_fillFrame {id : UInt32} (h : fillFrame (s, frame) id = some (s', frame')) :
    (frame'.map fun entry => entry.1.handle) = frame.map (fun entry => entry.1.handle) ∨
      (frame'.map fun entry => entry.1.handle) = frame.map (fun entry => entry.1.handle) ++ [id] := by
  rw [fillFrame] at h
  split at h
  · cases h
    split
    · exact .inl rfl
    · exact .inr (by rw [List.map_append]; rfl)
  · cases h

theorem FrameOk.fillFrame (h : FrameOk frame) {id : UInt32} (hNew : id ∉ frame.map fun entry => entry.1.handle)
    (hFill : fillFrame (s, frame) id = some (s', frame')) : FrameOk frame' := by
  have hHandles := handles_fillFrame hFill
  rw [PubHandler.fillFrame] at hFill
  split at hFill
  · rename_i hPlaces
    cases hFill
    split
    · exact h
    · rename_i hSome
      rw [if_neg hSome] at hHandles
      refine ⟨?_, fun entry hEntry => ?_, ?_⟩
      · rw [List.length_append]
        exact hPlaces
      · rcases List.mem_append.mp hEntry with hOld | hLast
        · exact h.entries entry hOld
        · rw [List.mem_singleton.mp hLast]
          refine ⟨rfl, ?_⟩
          cases hPoints : (s.handlers id).pointsClouds with
          | nil => exact absurd (by rw [hPoints]; rfl) hSome
          | cons point rest => simp [LidarPubHandler.getLidarBaseTime, hPoints]
      · rcases hHandles with hSame | hAdded
        · rw [hSame]
          exact h.distinct
        · rw [hAdded]
          exact List.nodup_append.mpr ⟨h.distinct, List.nodup_singleton id, fun a ha b hb hEq =>
            hNew (List.mem_singleton.mp hb ▸ hEq ▸ ha)⟩
  · cases hFill

theorem FrameOk.foldlM {handles : List UInt32} {state : PubHandler × Frame} (h : FrameOk state.2) (hNodup : handles.Nodup)
    (hNew : ∀ id ∈ handles, id ∉ state.2.map fun entry => entry.1.handle)
    (hFold : handles.foldlM PubHandler.fillFrame state = some (s', frame')) : FrameOk frame' := by
  induction handles generalizing state with
  | nil =>
    cases hFold
    exact h
  | cons id rest ih =>
    rw [List.foldlM_cons] at hFold
    obtain ⟨next, hFill, hRest⟩ := Option.bind_eq_some_iff.mp hFold
    obtain ⟨hHead, hTail⟩ := List.nodup_cons.mp hNodup
    refine ih (h.fillFrame (hNew id List.mem_cons_self) hFill) hTail (fun other hOther => ?_) hRest
    have hOld := hNew other (List.mem_cons_of_mem _ hOther)
    rcases handles_fillFrame hFill with hSame | hAdded
    · rwa [hSame]
    · rw [hAdded, List.mem_append, List.mem_singleton]
      rintro (hBefore | rfl)
      · exact hOld hBefore
      · exact hHead hOther

theorem frameOk_checkTimer {id : UInt32} {now : ℤ} (hHandles : s.handles.Nodup)
    (h : s.checkTimer id now = some (s', frame)) : FrameOk frame := by
  rw [checkTimer] at h
  split at h
  · simp only at h
    split at h
    · cases h
      exact frameOk_nil
    · split at h
      · cases h
        exact frameOk_nil
      · exact frameOk_nil.fillFrame nofun h
  · split at h
    · cases h
      exact frameOk_nil
    · split at h
      · cases h
        exact frameOk_nil
      · exact frameOk_nil.foldlM hHandles (fun _ _ => List.not_mem_nil) h

/-- No place of the frame is overrun while there are no more lidars than places. -/
theorem foldlM_fillFrame_isSome {handles : List UInt32} {state : PubHandler × Frame}
    (h : state.2.length + handles.length ≤ kMaxSourceLidar) : (handles.foldlM PubHandler.fillFrame state).isSome := by
  induction handles generalizing state with
  | nil => rfl
  | cons id rest ih =>
    rw [List.length_cons] at h
    rw [List.foldlM_cons, PubHandler.fillFrame, if_pos (by omega)]
    refine ih ?_
    show (if (state.1.handlers id).pointsClouds.isEmpty then state.2 else _).length + rest.length ≤ kMaxSourceLidar
    split
    · omega
    · rw [List.length_append, List.length_singleton]
      omega

theorem checkTimer_isSome (h : s.handles.length ≤ kMaxSourceLidar) (id : UInt32) (now : ℤ) : (s.checkTimer id now).isSome := by
  rw [checkTimer]
  split
  · simp only
    split
    · rfl
    · split
      · rfl
      · have hPlace : (s, ([] : Frame)).2.length < kMaxSourceLidar := Nat.succ_pos _
        rw [PubHandler.fillFrame, if_pos hPlace]
        rfl
  · split
    · rfl
    · split
      · rfl
      · exact foldlM_fillFrame_isSome (by simpa using h)

/-- Filling a frame changes nothing but the lidars it takes the points of. -/
theorem foldlM_fillFrame_eq {handles : List UInt32} {state : PubHandler × Frame}
    (h : handles.foldlM PubHandler.fillFrame state = some (s', frame')) :
    ∃ handlers, s' = { state.1 with handlers := handlers } := by
  induction handles generalizing state with
  | nil =>
    cases h
    exact ⟨_, rfl⟩
  | cons id rest ih =>
    rw [List.foldlM_cons] at h
    obtain ⟨next, hFill, hRest⟩ := Option.bind_eq_some_iff.mp h
    rw [PubHandler.fillFrame] at hFill
    split at hFill <;> cases hFill
    obtain ⟨handlers, rfl⟩ := ih hRest
    exact ⟨handlers, rfl⟩

theorem checkTimer_eq {id : UInt32} {now : ℤ} (h : s.checkTimer id now = some (s', frame)) :
    ∃ handlers lastPubTime, s' = { s with handlers := handlers, lastPubTime := lastPubTime } := by
  rw [PubHandler.checkTimer] at h
  split at h
  · simp only at h
    split at h
    · cases h
      exact ⟨_, _, rfl⟩
    · split at h
      · cases h
        exact ⟨_, _, rfl⟩
      · have hOne : [id].foldlM fillFrame (s, []) = some (s', frame) := by rw [List.foldlM_cons, h]; rfl
        obtain ⟨handlers, rfl⟩ := foldlM_fillFrame_eq hOne
        exact ⟨handlers, _, rfl⟩
  · split at h
    · cases h
      exact ⟨_, _, rfl⟩
    · split at h
      · cases h
        exact ⟨_, _, rfl⟩
      · obtain ⟨handlers, rfl⟩ := foldlM_fillFrame_eq h
        exact ⟨handlers, _, rfl⟩

theorem nodup_collect (h : s.handles.Nodup) (packet : RawPacket) (rest : List RawPacket) :
    (s.collect packet rest).handles.Nodup := by
  show (if packet.handle ∈ s.handles then s.handles else s.handles.orderedInsert (· ≤ ·) packet.handle).Nodup
  split
  · exact h
  · exact (List.perm_orderedInsert _ _ _).nodup_iff.mpr (List.nodup_cons.mpr ⟨‹_›, h⟩)

end Frames

section Packets

variable {s} {s' : PubHandler} {frame : Frame}

theorem rawDataProcess_cases {now : ℤ} (h : s.rawDataProcess now = some (s', frame)) :
    ∃ packet rest, s.rawPacketQueue = packet :: rest ∧ (s.collect packet rest).checkTimer packet.handle now = some (s', frame) := by
  rw [rawDataProcess] at h
  split at h
  · cases h
  · exact ⟨_, _, ‹_›, h⟩

/-- What a packet adds is in the frame that it completes or still with its lidar. -/
theorem rawDataProcess_conserves {now : ℤ} {packet : RawPacket} {rest : List RawPacket} (hQueue : s.rawPacketQueue = packet :: rest)
    (h : s.rawDataProcess now = some (s', frame)) (id : UInt32) :
    points (framed frame id) ++ s'.pending id = s.pending id ++ if id = packet.handle then s.newPoints packet else [] := by
  obtain ⟨packet', rest', hQueue', hTimer⟩ := rawDataProcess_cases h
  rw [hQueue] at hQueue'
  cases hQueue'
  rw [checkTimer_conserves hTimer, pending_collect]

theorem frameOk_rawDataProcess {now : ℤ} (hHandles : s.handles.Nodup) (h : s.rawDataProcess now = some (s', frame)) :
    FrameOk frame ∧ s'.handles.Nodup := by
  obtain ⟨packet, rest, -, hTimer⟩ := rawDataProcess_cases h
  have hCollect := nodup_collect hHandles packet rest
  obtain ⟨handlers, lastPubTime, rfl⟩ := checkTimer_eq hTimer
  exact ⟨frameOk_checkTimer hCollect hTimer, hCollect⟩

end Packets

end PubHandler
end RoveMapping.Livox
