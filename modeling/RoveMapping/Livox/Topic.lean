import RoveMapping.Livox.Driver
import RoveMapping.Livox.PublishedTimes

/-! # From the raw packets to the readers

What the viewer, the mesh builder and the SLAM node read of a lidar while the driver runs: from its own topic with
`multi_topic`, among the messages of the others without.
-/
namespace RoveMapping.Livox
open Resumption PubHandler Fallible
set_option autoImplicit false

/-- All three readers find the points in a message. -/
structure ReadBack (msg : Slam.PointCloud2) (points : List PointXyzlt) : Prop where
  viewer : Slam.pc2ToXyz msg = some (points.map fun point => point.words.xyz)
  meshBuilder : Slam.pc2ToXyzi msg = some (points.map PointXyzlt.words)
  node : Slam.pc2ToLidarFrame msg = some (points.map PointXyzlt.words)

theorem readBack_initPointcloud2Msg (stamp : UInt64 → Int32 × UInt32) (frameId : String) {pkg : StoragePacket}
    (hWhole : pkg.Whole) (hNum : pkg.pointsNum < 2 ^ 32) :
    ReadBack (initPointcloud2Msg stamp frameId pkg).toPointCloud2 pkg.points :=
  ⟨pc2ToXyz_initPointcloud2Msg stamp frameId hWhole hNum, pc2ToXyzi_initPointcloud2Msg stamp frameId hWhole hNum,
    pc2ToLidarFrame_initPointcloud2Msg stamp frameId hWhole hNum⟩

section Published

variable {s : Driver} {handle : UInt32} {i : Index} {pkg : StoragePacket}

theorem whole_of_published (h : s.Conserves handle i) (hPkg : pkg ∈ s.lds.publishedOn i) : pkg.Whole := by
  obtain ⟨entry, -, rfl⟩ := Driver.entry_of_published h hPkg
  rfl

theorem base_of_published (h : s.Conserves handle i) (hPkg : pkg ∈ s.lds.publishedOn i) :
    pkg.points.head?.map PointXyzlt.offsetTime = some pkg.baseTime := by
  obtain ⟨entry, hEntry, rfl⟩ := Driver.entry_of_published h hPkg
  exact hEntry.2

/-- The clouds of the topic in the order in which the SLAM node receives them. -/
def nodeClouds (stamp : UInt64 → Int32 × UInt32) (frameId : String) (packets : List StoragePacket) :
    Option (List (List Slam.Point)) :=
  packets.mapM fun pkg => Slam.pc2ToLidarFrame (initPointcloud2Msg stamp frameId pkg).toPointCloud2

theorem nodeClouds_eq (stamp : UInt64 → Int32 × UInt32) (frameId : String) {packets : List StoragePacket}
    (h : ∀ pkg ∈ packets, pkg.Whole ∧ pkg.pointsNum < 2 ^ 32) :
    nodeClouds stamp frameId packets = some (packets.map fun pkg => pkg.points.map PointXyzlt.words) :=
  mapM_eq_some_map fun pkg hPkg => pc2ToLidarFrame_initPointcloud2Msg stamp frameId (h pkg hPkg).1 (h pkg hPkg).2

end Published

/-- Every message published of a configured lidar is read alike by the three readers, and the points that the SLAM
node finds are, message after message, points of the raw packets in their order. -/
theorem topic_read_back {config : PointCloudConfig} {lidarExtrinsics : UInt32 → Option ExtParameter} {handles : List UInt32}
    {queueSize : BitVec 32} {multiTopic : Bool} {output : OutputType} {handle : UInt32} {i : Index}
    (hIndex : (Driver.registered handles).mapIndex (CacheIndex.keyOf handle) = some i) {s : Driver}
    (hRun : Driver.Run (.initial config lidarExtrinsics handles queueSize ⟨.pointCloud2, multiTopic, output⟩) s)
    (hNum : ∀ pkg ∈ s.lds.publishedOn i, pkg.pointsNum < 2 ^ 32) (stamp : UInt64 → Int32 × UInt32) (frameId : String) :
    (∀ pkg ∈ s.lds.publishedOn i, ReadBack (initPointcloud2Msg stamp frameId pkg).toPointCloud2 pkg.points) ∧
    ∃ clouds, nodeClouds stamp frameId (s.lds.publishedOn i) = some clouds ∧
      clouds.flatten.Sublist ((s.decoded handle).map PointXyzlt.words) := by
  have hInitial : (Driver.initial config lidarExtrinsics handles queueSize ⟨.pointCloud2, multiTopic, output⟩).Conserves handle i :=
    Driver.conserves_initial hIndex
  have h := hInitial.run hRun
  refine ⟨fun pkg hPkg => readBack_initPointcloud2Msg stamp frameId (whole_of_published h hPkg) (hNum pkg hPkg),
    _, nodeClouds_eq stamp frameId fun pkg hPkg => ⟨whole_of_published h hPkg, hNum pkg hPkg⟩, ?_⟩
  have hWords := (Driver.published_sublist h).map PointXyzlt.words
  rw [points, List.map_flatMap, List.flatMap_def] at hWords
  exact hWords

theorem topic_read_back_pending : ∃ s : Driver,
    Driver.Run (.initial ⟨10, 5, 1⟩ (fun _ => none) [7] 2 ⟨.pointCloud2, true, .toRos⟩) s ∧
    ((s.lds.publishedOn 0).map fun pkg => pkg.points.length) = [2] ∧
    ∀ pkg ∈ s.lds.publishedOn 0, ReadBack (initPointcloud2Msg (fun _ => (0, 0)) "livox_frame" pkg).toPointCloud2 pkg.points := by
  let packet : EthernetPacket := ⟨.mid360, 0, 1, 0, .cartesianHigh [⟨1, 2, 3, 4, 5⟩]⟩
  obtain ⟨s, hRun, hPoints⟩ : ∃ s : Driver,
      Driver.Run (.initial ⟨10, 5, 1⟩ (fun _ => none) [7] 2 ⟨.pointCloud2, true, .toRos⟩) s ∧
      ((s.lds.publishedOn 0).map (fun pkg => pkg.points.length), (s.lds.publishedOn 0).all fun pkg => pkg.pointsNum < 2 ^ 32) =
        ([2], true) :=
    Reaches.of_observed ([.sampling 0, .receive 7 packet 100, .receive 7 packet 200, .process 0, .process 12] ++
      List.replicate 12 .produce ++ List.replicate 13 .consume) _ (by decide +kernel)
  obtain ⟨hLengths, hAll⟩ := Prod.mk.inj hPoints
  have hIndex : (Driver.registered [7]).mapIndex (CacheIndex.keyOf 7) = some 0 := by decide +kernel
  have hNum : ∀ pkg ∈ s.lds.publishedOn 0, pkg.pointsNum < 2 ^ 32 := fun pkg hPkg =>
    of_decide_eq_true (List.all_eq_true.mp hAll pkg hPkg)
  exact ⟨s, hRun, hLengths, (topic_read_back hIndex hRun hNum _ _).1⟩

/-- Every message whose times are steady becomes a frame of the SLAM node with its points, in order, each timed to 256
nanoseconds. In the other format the times are exact. -/
theorem topic_keeps_times {config : PointCloudConfig} {lidarExtrinsics : UInt32 → Option ExtParameter} {handles : List UInt32}
    {queueSize : BitVec 32} {lddc : Lddc} {handle : UInt32} {i : Index}
    (hIndex : (Driver.registered handles).mapIndex (CacheIndex.keyOf handle) = some i) {s : Driver}
    (hRun : Driver.Run (.initial config lidarExtrinsics handles queueSize lddc) s)
    {stamp : UInt64 → Int32 × UInt32} (hStamp : KeepsStamp stamp) (frameId : String) (initial : Bool) {pkg : StoragePacket}
    (hPkg : pkg ∈ s.lds.publishedOn i) (hNum : pkg.pointsNum < 2 ^ 32) (hSteady : pkg.Steady) :
    (∃ frame, Slam.lidarFrame initial (initPointcloud2Msg stamp frameId pkg) = some frame ∧ Keeps pkg frame) ∧
    (fillPointsToCustomMsg pkg).points.map (fun point => (fillPointsToCustomMsg pkg).timebase + point.offsetTime.toUInt64) =
      pkg.points.map PointXyzlt.offsetTime := by
  have hInitial : (Driver.initial config lidarExtrinsics handles queueSize lddc).Conserves handle i :=
    Driver.conserves_initial hIndex
  have h := hInitial.run hRun
  have hWhole := whole_of_published h hPkg
  have hTimes : pkg.InTime := ⟨hSteady, base_of_published h hPkg⟩
  refine ⟨lidarFrame_published hStamp frameId initial hWhole hNum hTimes, ?_⟩
  rw [fillPointsToCustomMsg, List.take_of_length_le hWhole.ge, List.map_map]
  refine List.map_congr_left fun point hPoint => ?_
  have hSpan := hTimes.span point hPoint
  rw [Function.comp_apply, timestamp_eq hTimes]
  exact customPoint_time (hTimes.after point hPoint) (show _ < pkg.baseTime.toNat + 2 ^ 32 by omega)

/-- The time message of ROS, for times that are not negative. -/
def timeMsg (time : UInt64) : Int32 × UInt32 :=
  (Int32.ofNat (time.toNat / 1000000000), UInt32.ofNat (time.toNat % 1000000000))

theorem keepsStamp_timeMsg : KeepsStamp timeMsg := by
  intro time hTime
  rw [epochEnd] at hTime
  have hSec : (Int32.ofNat (time.toNat / 1000000000)).toInt = ((time.toNat / 1000000000 : ℕ) : ℤ) :=
    Int32.toInt_ofNat_of_lt (by omega)
  have hNanosec : (UInt32.ofNat (time.toNat % 1000000000)).toNat = time.toNat % 1000000000 :=
    UInt32.toNat_ofNat_of_lt' (show _ < 2 ^ 32 by omega)
  rw [timeMsg, hSec, hNanosec]
  omega

theorem topic_keeps_times_pending : ∃ s : Driver,
    Driver.Run (.initial ⟨10, 5, 1⟩ (fun _ => none) [7] 2 ⟨.pointCloud2, true, .toRos⟩) s ∧
    ∃ pkg ∈ s.lds.publishedOn 0, ∃ frame, Slam.lidarFrame false (initPointcloud2Msg timeMsg "livox_frame" pkg) = some frame ∧
      Keeps pkg frame := by
  let packet : EthernetPacket := ⟨.mid360, 0, 1, 0, .cartesianHigh [⟨1, 2, 3, 4, 5⟩]⟩
  obtain ⟨s, hRun, hPoints⟩ : ∃ s : Driver,
      Driver.Run (.initial ⟨10, 5, 1⟩ (fun _ => none) [7] 2 ⟨.pointCloud2, true, .toRos⟩) s ∧
      (s.lds.publishedOn 0).map (fun pkg => (pkg.baseTime, pkg.pointsNum, pkg.points.map PointXyzlt.offsetTime)) =
        [(100, 2, [100, 200])] :=
    Reaches.of_observed ([.sampling 0, .receive 7 packet 100, .receive 7 packet 200, .process 0, .process 12] ++
      List.replicate 12 .produce ++ List.replicate 13 .consume) _ (by decide +kernel)
  obtain ⟨pkg, rest, hPublished, hPkg, -⟩ := List.map_eq_cons_iff.mp hPoints
  obtain ⟨hBase, hNum, hTimes⟩ : pkg.baseTime = 100 ∧ pkg.pointsNum = 2 ∧ pkg.points.map PointXyzlt.offsetTime = [100, 200] := by
    simpa using hPkg
  have hMem : pkg ∈ s.lds.publishedOn 0 := hPublished ▸ List.mem_cons_self
  have hTime (point : PointXyzlt) (hPoint : point ∈ pkg.points) :
      100 ≤ point.offsetTime.toNat ∧ point.offsetTime.toNat ≤ 200 := by
    have hListed : point.offsetTime ∈ [100, 200] := hTimes ▸ List.mem_map_of_mem hPoint
    rcases List.mem_pair.mp hListed with hFirst | hSecond
    · rw [hFirst]
      decide
    · rw [hSecond]
      decide
  have hBaseNat : pkg.baseTime.toNat = 100 := by rw [hBase]; rfl
  have hSteady : pkg.Steady := by
    refine ⟨fun point hPoint => ?_, fun point hPoint => ?_, fun point hPoint => ?_⟩
    · rw [UInt64.le_iff_toNat_le, hBaseNat]
      exact (hTime point hPoint).1
    · have hLast := (hTime point hPoint).2
      omega
    · have hLast := (hTime point hPoint).2
      rw [epochEnd]
      omega
  have hIndex : (Driver.registered [7]).mapIndex (CacheIndex.keyOf 7) = some 0 := by decide +kernel
  exact ⟨s, hRun, pkg, hMem,
    (topic_keeps_times hIndex hRun keepsStamp_timeMsg "livox_frame" false hMem (by omega) hSteady).1⟩

end RoveMapping.Livox
