import RoveMapping.Livox.Topic
import RoveMapping.Slam.MeshBuilder

/-! # From the topic into a recording

What the mesh builder writes of the clouds that it receives from the driver, whichever of them reach it.
-/
namespace RoveMapping.Livox
open Resumption PubHandler
set_option autoImplicit false

/-- A packet as the mesh builder buffers it. -/
def StoragePacket.scan (pkg : StoragePacket) : Slam.BufferedScan := (pkg.timestamp.toNat, pkg.points.map PointXyzlt.words)

section Clouds

variable {s : Driver} {handle : UInt32} {i : Index} {pkg : StoragePacket}

theorem points_of_published (h : s.Conserves handle i) (hPkg : pkg ∈ s.lds.publishedOn i) : pkg.points ≠ [] := by
  have hVisible : pkg ∈ Lds.visible (s.lds.accepted i) := by
    rw [h.lds.flow.order i, List.append_assoc]
    exact List.mem_append_left _ ((h.lds.flow.sent.publishedOn_sublist i).subset hPkg)
  simpa using (List.mem_filter.mp hVisible).2

variable {stamp : UInt64 → Int32 × UInt32} (hStamp : KeepsStamp stamp) (frameId : String) (hWhole : pkg.Whole)
  (hNum : pkg.pointsNum < 2 ^ 32)

include hWhole hNum in
theorem readable_initPointcloud2Msg : Slam.MeshBuilder.Readable (initPointcloud2Msg stamp frameId pkg) := by
  rw [Slam.MeshBuilder.Readable, pc2ToXyzi_initPointcloud2Msg stamp frameId hWhole hNum]
  rfl

include hStamp hWhole hNum in
theorem scansOf_initPointcloud2Msg (hPoints : pkg.points ≠ []) (hTime : pkg.timestamp.toNat < epochEnd) :
    Slam.MeshBuilder.scansOf (initPointcloud2Msg stamp frameId pkg) = [pkg.scan] := by
  have hNs : Slam.stampNs (stamp pkg.timestamp).1 (stamp pkg.timestamp).2 = pkg.timestamp.toNat := (hStamp _ hTime).2
  rw [Slam.MeshBuilder.scansOf, pc2ToXyzi_initPointcloud2Msg stamp frameId hWhole hNum]
  obtain ⟨point, rest, hCons⟩ := List.exists_cons_of_ne_nil hPoints
  rw [StoragePacket.scan, ← hNs, hCons]
  rfl

theorem timestamp_of_points (hPoints : pkg.points ≠ []) : pkg.timestamp = pkg.baseTime := by
  rw [StoragePacket.timestamp, if_neg (by simpa using hPoints)]

end Clouds

/-- A mesh builder is started without a recording, and lets a tool build its meshes. -/
structure StartsBuffering (start : Slam.MeshBuilder) : Prop where
  method : start.method ≠ "nvblox"
  recordingDir : start.recordingDir = ""
  maxScans : 0 < start.maxScans
  poses : start.poses = []
  scans : start.scans = []

/-- A mesh is built from all poses of the odometry so far and from the last clouds of the lidar that were received: each
has a record of its own in the recording, in their order, with its time and its points as they were published. -/
theorem recording_keeps_the_topic {config : PointCloudConfig} {lidarExtrinsics : UInt32 → Option ExtParameter}
    {handles : List UInt32} {queueSize : BitVec 32} {multiTopic : Bool} {output : OutputType} {handle : UInt32} {i : Index}
    (hIndex : (Driver.registered handles).mapIndex (CacheIndex.keyOf handle) = some i) {s : Driver}
    (hRun : Driver.Run (.initial config lidarExtrinsics handles queueSize ⟨.pointCloud2, multiTopic, output⟩) s)
    {stamp : UInt64 → Int32 × UInt32} (hStamp : KeepsStamp stamp) (frameId : String) {received : List StoragePacket}
    (hReceived : ∀ pkg ∈ received, pkg ∈ s.lds.publishedOn i ∧ pkg.baseTime.toNat < epochEnd ∧
      8 + 16 * pkg.pointsNum < 2 ^ 32)
    {start : Slam.MeshBuilder} (hStart : StartsBuffering start) {events : List Slam.MeshBuilderEvent}
    (hEvents : events.filterMap Slam.MeshBuilderEvent.cloud? = received.map (initPointcloud2Msg stamp frameId)) :
    ∃ node, start.run events = some node ∧ ∀ tools,
      (events.filterMap Slam.MeshBuilderEvent.pose? = [] → node.doBuild tools = (.error .noOdometry, node.files)) ∧
      (events.filterMap Slam.MeshBuilderEvent.pose? ≠ [] → received ≠ [] → ∃ recording records,
        node.doBuild tools =
          (node.runTool tools, ⟨some (events.filterMap Slam.MeshBuilderEvent.pose?), some recording⟩) ∧
        Slam.walk recording.payload = some records ∧
        List.Forall₂ Slam.Recorded records ((received.rtake start.maxScans.toNat).map StoragePacket.scan)) := by
  have hInitial :
      (Driver.initial config lidarExtrinsics handles queueSize ⟨.pointCloud2, multiTopic, output⟩).Conserves handle i :=
    Driver.conserves_initial hIndex
  have h := hInitial.run hRun
  obtain ⟨hMethod, hDir, hMax, hNoPoses, hNoScans⟩ := hStart
  have hReadable : ∀ msg ∈ events.filterMap Slam.MeshBuilderEvent.cloud?, Slam.MeshBuilder.Readable msg := by
    rw [hEvents]
    intro msg hMsg
    obtain ⟨pkg, hPkg, rfl⟩ := List.mem_map.mp hMsg
    obtain ⟨hPublished, -, hSize⟩ := hReceived pkg hPkg
    exact readable_initPointcloud2Msg frameId (whole_of_published h hPublished) (by omega)
  have hScans : (events.filterMap Slam.MeshBuilderEvent.cloud?).flatMap Slam.MeshBuilder.scansOf =
      received.map StoragePacket.scan := by
    rw [hEvents, List.flatMap_map, List.map_eq_flatMap]
    refine List.flatMap_congr fun pkg hPkg => ?_
    obtain ⟨hPublished, hTime, hSize⟩ := hReceived pkg hPkg
    have hPoints := points_of_published h hPublished
    exact scansOf_initPointcloud2Msg hStamp frameId (whole_of_published h hPublished) (by omega) hPoints
      (timestamp_of_points hPoints ▸ hTime)
  have hFresh : Slam.MeshBuilder.Holds start start [] [] :=
    ⟨rfl, rfl, rfl, rfl, (List.append_nil _).symm, by rw [hNoScans, List.append_nil, List.rtake_nil]⟩
  obtain ⟨node, hNode, hHolds⟩ := hFresh.run hReadable
  have hNodePoses : node.poses = events.filterMap Slam.MeshBuilderEvent.pose? := by
    rw [hHolds.poses, hNoPoses, List.nil_append, List.nil_append]
  have hNodeScans : node.scans = (received.rtake start.maxScans.toNat).map StoragePacket.scan := by
    rw [hHolds.scans, hNoScans, List.nil_append, List.nil_append, hScans, List.rtake, List.rtake, List.map_drop, List.length_map]
  have hNodeMethod : node.method ≠ "nvblox" := hHolds.method ▸ hMethod
  refine ⟨node, hNode, fun tools => ⟨fun hNone => ?_, fun hPoses hSome => ?_⟩⟩
  · rw [Slam.MeshBuilder.doBuild, if_neg hNodeMethod, hNodePoses, hNone]
    rfl
  · have hWindow : received.rtake start.maxScans.toNat ≠ [] := by
      intro hNil
      have hLength := congrArg List.length hNil
      have hCount := List.length_pos_of_ne_nil hSome
      rw [List.rtake, List.length_drop, List.length_nil] at hLength
      omega
    have hStorable : ∀ scan ∈ node.scans, Slam.Storable scan := by
      rw [hNodeScans]
      intro scan hScan
      obtain ⟨pkg, hPkg, rfl⟩ := List.mem_map.mp hScan
      obtain ⟨hPublished, -, hSize⟩ := hReceived pkg (List.mem_of_mem_drop hPkg)
      refine ⟨⟨Int.natCast_nonneg _, ?_⟩, ?_⟩
      · show (pkg.timestamp.toNat : ℤ) < 2 ^ 64
        exact_mod_cast pkg.timestamp.toNat_lt
      · show 8 + 16 * (pkg.points.map PointXyzlt.words).length < 2 ^ 32
        rwa [List.length_map, ← (whole_of_published h hPublished)]
    obtain ⟨recording, records, hWrite, hWalk, hRecords⟩ := Slam.writeScans_spec hStorable
    refine ⟨recording, records, ?_, hWalk, hNodeScans ▸ hRecords⟩
    rw [Slam.doBuild_files tools hNodeMethod (hNodePoses ▸ hPoses) (hHolds.recordingDir.trans hDir) ?_ hWrite, hNodePoses]
    rw [hNodeScans]
    exact fun hNil => hWindow (List.map_eq_nil_iff.mp hNil)

/-- A cloud of two points between a pose and a build that fails. -/
theorem recording_keeps_the_topic_built : ∃ s : Driver,
    Driver.Run (.initial ⟨10, 5, 1⟩ (fun _ => none) [7] 2 ⟨.pointCloud2, true, .toRos⟩) s ∧
    ∃ pkg ∈ s.lds.publishedOn 0, ∃ start : Slam.MeshBuilder, ∃ events node,
      events.filterMap Slam.MeshBuilderEvent.cloud? = [initPointcloud2Msg timeMsg "livox_frame" pkg] ∧
      start.run events = some node ∧ ∃ recording records,
        (node.doBuild ⟨.notAdvertised, 0, true, false, 0, false⟩).2.recording = some recording ∧
        Slam.walk recording.payload = some records ∧ List.Forall₂ Slam.Recorded records [pkg.scan] := by
  let packet : EthernetPacket := ⟨.mid360, 0, 1, 0, .cartesianHigh [⟨1, 2, 3, 4, 5⟩]⟩
  obtain ⟨s, hRun, hPoints⟩ : ∃ s : Driver,
      Driver.Run (.initial ⟨10, 5, 1⟩ (fun _ => none) [7] 2 ⟨.pointCloud2, true, .toRos⟩) s ∧
      (s.lds.publishedOn 0).map (fun pkg => (pkg.baseTime, pkg.pointsNum)) = [(100, 2)] :=
    Reaches.of_observed ([.sampling 0, .receive 7 packet 100, .receive 7 packet 200, .process 0, .process 12] ++
      List.replicate 12 .produce ++ List.replicate 13 .consume) _ (by decide +kernel)
  obtain ⟨pkg, rest, hPublished, hPkg, -⟩ := List.map_eq_cons_iff.mp hPoints
  obtain ⟨hBase, hNum⟩ := Prod.mk.inj hPkg
  have hMem : pkg ∈ s.lds.publishedOn 0 := hPublished ▸ List.mem_cons_self
  have hIndex : (Driver.registered [7]).mapIndex (CacheIndex.keyOf 7) = some 0 := by decide +kernel
  let start : Slam.MeshBuilder := ⟨"poisson", "/tmp/rove_slam_mesh", "", 600, false, "", "", [], [], ⟨none, none⟩⟩
  let pose : Slam.OdometryMsg := ⟨1, 0, (0, 0, 0), (0, 0, 0, 1)⟩
  let events : List Slam.MeshBuilderEvent := [.odom pose, .lidar (initPointcloud2Msg timeMsg "livox_frame" pkg), 
    .build ⟨.notAdvertised, 1, false, false, 0, false⟩]
  have hReceived : ∀ other ∈ [pkg], other ∈ s.lds.publishedOn 0 ∧ other.baseTime.toNat < epochEnd ∧
      8 + 16 * other.pointsNum < 2 ^ 32 := by
    intro other hOther
    obtain rfl : other = pkg := List.mem_singleton.mp hOther
    have hBaseNat : other.baseTime.toNat = 100 := by rw [hBase]; rfl
    refine ⟨hMem, ?_, by omega⟩
    rw [hBaseNat, epochEnd]
    norm_num
  obtain ⟨node, hNode, hBuild⟩ := recording_keeps_the_topic hIndex hRun keepsStamp_timeMsg "livox_frame" hReceived
    (show StartsBuffering start from ⟨by decide, rfl, by decide, rfl, rfl⟩)
    (show events.filterMap Slam.MeshBuilderEvent.cloud? = _ from rfl)
  obtain ⟨recording, records, hFiles, hWalk, hRecords⟩ := (hBuild ⟨.notAdvertised, 0, true, false, 0, false⟩).2 (List.cons_ne_nil _ _) (List.cons_ne_nil _ _)
  have hWindow : [pkg].rtake start.maxScans.toNat = [pkg] := by
    show [pkg].drop (1 - 600) = [pkg]
    simp
  rw [hWindow] at hRecords
  exact ⟨s, hRun, pkg, hMem, start, events, node, rfl, hNode, recording, records, congrArg _ (congrArg Prod.snd hFiles), hWalk,
    hRecords⟩

end RoveMapping.Livox
