import RoveMapping.Livox.PubHandler
import RoveMapping.Livox.Wakeups

/-! # The driver

The frames of `PubHandler` go to the lidars of `Lds`: the thread that cuts a frame stores its packets before it takes
the next raw packet. The lidars of the configuration have their index before the first packet arrives.
-/
namespace RoveMapping.Livox
set_option autoImplicit false

open Resumption PubHandler

/-- `decoded` and `emitted` record the points of the raw packets and the entries of the frames. -/
structure Driver where
  handler : PubHandler
  lds : Lds
  decoded : UInt32 → List PointXyzlt
  emitted : Frame

inductive DriverLabel where
  | receive (handle : UInt32) (packet : EthernetPacket) (now : UInt64)
  | imu (timeType : UInt8)
  | process (now : ℤ)
  | register (handle : UInt32)
  | sampling (i : Index)
  | requestExit
  | exitSignal
  | produce
  | consume

namespace Lds

/-- The packet of the storing thread whose fate is not recorded yet. -/
def undecided (i : Index) : Producer → List StoragePacket
  | .push pc job =>
    match pc with
    | .checkEmpty | .checkCount | .signal => []
    | _ => if job.index = i then [job.data.stored job.baseTime] else []
  | .next => []

/-- What the frames have brought for a lidar, in order: offered to its queue, about to be, or still in the frame. -/
def brought (s : Lds) (handle : UInt32) (i : Index) : List StoragePacket :=
  s.offered i ++ undecided i s.producer ++ framed s.frame handle

/-- The lidar has its index, and packets go by the handle to the index. -/
structure Routed (s : Lds) (handle : UInt32) (i : Index) : Prop where
  cache : s.cache.Ok
  index : s.cache.mapIndex (CacheIndex.keyOf handle) = some i
  frame : ∀ entry ∈ s.frame, entry.1.lidarType = kLivoxLidarType

variable {s s' : Lds} {handle : UInt32} {i : Index}

theorem Routed.getIndex (h : s.Routed handle i) : s.cache.getIndex kLivoxLidarType handle = some i := by
  rw [CacheIndex.getIndex, CacheIndex.generateIndexKey, if_pos rfl]
  exact h.index

theorem Routed.handle_iff (h : s.Routed handle i) {data : PointPacket} {index : Index} (hType : data.lidarType = kLivoxLidarType)
    (hIndex : s.cache.getIndex data.lidarType data.handle = some index) : index = i ↔ data.handle = handle := by
  rw [CacheIndex.getIndex, CacheIndex.generateIndexKey, if_pos hType, Option.bind_some] at hIndex
  constructor
  · rintro rfl
    exact keyOf_injective (h.cache.distinct _ _ _ hIndex h.index)
  · intro hHandle
    rw [hHandle, h.index] at hIndex
    exact (Option.some_inj.mp hIndex).symm

theorem offered_log (job : Job) (kept : Bool) (j : Index) :
    (s.log job kept).offered j = s.offered j ++ if job.index = j then [job.data.stored job.baseTime] else [] := by
  by_cases hj : job.index = j
  · subst hj
    simp [offered, log]
  · simp [offered, log, hj, Function.update_of_ne (Ne.symm hj)]

theorem brought_push (job : Job) (pc : PushAt) (hPush : s.producer = .push pc job) :
    (s.push job pc).brought handle i = s.brought handle i := by
  cases pc with
  | checkStorage =>
    simp only [Lds.push, brought, hPush]
    split <;> rfl
  | checkFull =>
    simp only [Lds.push, brought, hPush]
    split
    · show (s.log job false).offered i ++ [] ++ _ = _
      rw [offered_log, List.append_nil]
      rfl
    · rfl
  | baseTime | pointsNum | clear | resize | copy =>
    simp only [brought, hPush]
    rfl
  | update =>
    show ((s.setQueue job.index (s.queue job.index).queuePushUpdate).log job true).offered i ++ [] ++ _ = _
    rw [offered_log, List.append_nil, brought, hPush]
    rfl
  | checkEmpty | checkCount =>
    simp only [Lds.push, brought, hPush]
    split <;> rfl
  | signal =>
    simp only [brought, hPush]
    rfl

theorem brought_produce (h : s.Routed handle i) (hNext : s.produce = some s') : s'.brought handle i = s.brought handle i := by
  rw [Lds.produce] at hNext
  split at hNext
  · rename_i pc job hPush
    cases hNext
    exact brought_push job pc hPush
  · cases hNext
  · rename_i data baseTime rest hProducer hFrame
    have hType := h.frame (data, baseTime) (hFrame ▸ List.mem_cons_self)
    simp only [brought, hProducer, hFrame]
    split at hNext <;> cases hNext
    · rename_i index hIndex
      have hHandle := h.handle_iff hType hIndex
      show s.offered i ++ (if index = i then [data.stored baseTime] else []) ++ framed rest handle = _
      by_cases hEq : data.handle = handle <;> simp [framed, hHandle, hEq, undecided]
    · rename_i hNone
      have hNe : data.handle ≠ handle := fun hEq => by
        rw [hType, hEq, h.getIndex] at hNone
        cases hNone
      show s.offered i ++ undecided i s.producer ++ framed rest handle = _
      simp [hProducer, framed, hNe]

theorem brought_consume (hNext : s.consume = some s') : s'.brought handle i = s.brought handle i := by
  obtain ⟨hHistory, hProducer, hFrame, -⟩ := consume_unchanged hNext
  rw [brought, brought, offered, offered, hHistory, hProducer, hFrame]

theorem Routed.of_cache (h : s.Routed handle i) (hCache : s'.cache = s.cache)
    (hFrame : ∀ entry ∈ s'.frame, entry.1.lidarType = kLivoxLidarType) : s'.Routed handle i :=
  ⟨hCache ▸ h.cache, hCache ▸ h.index, hFrame⟩

theorem push_routing (s : Lds) (job : Job) (pc : PushAt) : (s.push job pc).cache = s.cache ∧ (s.push job pc).frame = s.frame := by
  cases pc with
  | checkStorage | checkFull =>
    simp only [Lds.push]
    split <;> exact ⟨rfl, rfl⟩
  | _ => exact ⟨rfl, rfl⟩

theorem Routed.produce (h : s.Routed handle i) (hNext : s.produce = some s') : s'.Routed handle i := by
  rw [Lds.produce] at hNext
  split at hNext
  · rename_i pc job hPush
    cases hNext
    obtain ⟨hCache, hFrame⟩ := push_routing s job pc
    exact h.of_cache hCache (hFrame ▸ h.frame)
  · cases hNext
  · rename_i data baseTime rest hProducer hFrame
    have hRest : ∀ entry ∈ rest, entry.1.lidarType = kLivoxLidarType := fun entry hEntry =>
      h.frame entry (hFrame ▸ List.mem_cons_of_mem _ hEntry)
    split at hNext <;> cases hNext <;> exact h.of_cache rfl hRest

end Lds

namespace Driver

/-- `InitLivoxLidar` gives each lidar of the configuration its index, in order. -/
def registered (handles : List UInt32) : CacheIndex :=
  handles.foldl (fun cache handle => (cache.getFreeIndex kLivoxLidarType handle).2) .initial

def initial (config : PointCloudConfig) (lidarExtrinsics : UInt32 → Option ExtParameter) (handles : List UInt32)
    (queueSize : BitVec 32) (lddc : Lddc) : Driver where
  handler := .initial config lidarExtrinsics
  lds := { Lds.initial queueSize lddc with cache := registered handles }
  decoded _ := []
  emitted := []

variable (s : Driver)

/-- A raw packet is processed when the entries of the frame before are stored. -/
def process (now : ℤ) : Option Driver :=
  match s.handler.rawPacketQueue with
  | [] => none
  | packet :: _ => do
    let (handler, frame) ← s.handler.rawDataProcess now
    let lds ← s.lds.next (.frame frame)
    let points := s.decoded packet.handle ++ s.handler.newPoints packet
    some ⟨handler, lds, Function.update s.decoded packet.handle points, s.emitted ++ frame⟩

def setLds (lds : Lds) : Driver := { s with lds := lds }

def next : DriverLabel → Option Driver
  | .receive handle packet now => (s.handler.onPointCloud handle packet now).map fun handler => { s with handler := handler }
  | .imu timeType => some { s with handler := s.handler.onImu timeType }
  | .process now => s.process now
  | .register handle => (s.lds.next (.register handle)).map s.setLds
  | .sampling i => (s.lds.next (.sampling i)).map s.setLds
  | .requestExit => (s.lds.next .requestExit).map s.setLds
  | .exitSignal => (s.lds.next .exitSignal).map s.setLds
  | .produce => (s.lds.next .produce).map s.setLds
  | .consume => (s.lds.next .consume).map s.setLds

abbrev Run : Driver → Driver → Prop := Reaches next fun _ _ => True

/-- What holds of a lidar of the configuration in every state. -/
structure Conserves (s : Driver) (handle : UInt32) (i : Index) : Prop where
  lds : s.lds.Inv
  routed : s.lds.Routed handle i
  handles : s.handler.handles.Nodup
  points : ∀ id, points (framed s.emitted id) ++ s.handler.pending id = s.decoded id
  brought : s.lds.brought handle i = framed s.emitted handle
  entries : ∀ entry ∈ s.emitted, EntryOk entry

variable {s} {s' : Driver} {handle : UInt32} {i : Index}

theorem Conserves.setLds (h : s.Conserves handle i) {lds : Lds} (hInv : lds.Inv) (hRouted : lds.Routed handle i)
    (hBrought : lds.brought handle i = s.lds.brought handle i) : (s.setLds lds).Conserves handle i :=
  ⟨hInv, hRouted, h.handles, h.points, hBrought.trans h.brought, h.entries⟩

theorem frame_cases {lds lds' : Lds} {frame : Frame} (h : lds.next (.frame frame) = some lds') :
    lds.producer = .next ∧ lds.frame = [] ∧ lds' = { lds with frame := frame } := by
  simp only [Lds.next] at h
  split at h
  · cases h
    exact ⟨‹_›, ‹_›, rfl⟩
  · cases h

theorem Conserves.process (h : s.Conserves handle i) {now : ℤ} (hNext : s.process now = some s') : s'.Conserves handle i := by
  rw [Driver.process] at hNext
  split at hNext
  · cases hNext
  · rename_i packet rest hQueue
    obtain ⟨⟨handler, frame⟩, hData, hNext⟩ := Option.bind_eq_some_iff.mp hNext
    obtain ⟨lds, hFrame, hNext⟩ := Option.bind_eq_some_iff.mp hNext
    cases hNext
    obtain ⟨hProducer, hEmpty, hLds⟩ := frame_cases hFrame
    obtain ⟨hFrameOk, hHandles⟩ := frameOk_rawDataProcess h.handles hData
    have hTypes : ∀ entry ∈ frame, entry.1.lidarType = kLivoxLidarType := fun entry hEntry =>
      (hFrameOk.entries entry hEntry).1
    refine ⟨h.lds.next hFrame, ?_, hHandles, fun id => ?_, ?_, fun entry hEntry => ?_⟩
    · rw [hLds]
      exact h.routed.of_cache rfl hTypes
    · have hConserves := rawDataProcess_conserves hQueue hData id
      rw [framed_append, points_append, List.append_assoc, hConserves, ← List.append_assoc, h.points id]
      by_cases hId : id = packet.handle
      · simp [hId]
      · simp [hId]
    · have hBrought := h.brought
      rw [framed_append, ← hBrought, hLds]
      simp [Lds.brought, hEmpty, framed, Lds.offered]
    · rcases List.mem_append.mp hEntry with hOld | hNew
      · exact h.entries entry hOld
      · exact hFrameOk.entries entry hNew

theorem ldsStep (lds : Option Lds) (h : lds.map s.setLds = some s') : ∃ lds', lds = some lds' ∧ s.setLds lds' = s' :=
  Option.map_eq_some_iff.mp h

theorem Conserves.next {l : DriverLabel} (h : s.Conserves handle i) (hNext : s.next l = some s') : s'.Conserves handle i := by
  cases l with
  | receive handle' packet now =>
    obtain ⟨handler, hHandler, rfl⟩ := Option.map_eq_some_iff.mp hNext
    rw [onPointCloud] at hHandler
    split at hHandler <;> cases hHandler
    exact ⟨h.lds, h.routed, h.handles, h.points, h.brought, h.entries⟩
  | imu timeType =>
    cases hNext
    exact ⟨h.lds, h.routed, h.handles, h.points, h.brought, h.entries⟩
  | process now => exact h.process hNext
  | register handle' =>
    obtain ⟨lds, hLds, rfl⟩ := ldsStep (s.lds.next (.register handle')) hNext
    refine h.setLds (h.lds.next hLds) ?_ ?_ <;> cases hLds
    · exact ⟨h.routed.cache.getFreeIndex _ _, CacheIndex.mapIndex_getFreeIndex _ _ h.routed.index, h.routed.frame⟩
    · rfl
  | sampling j =>
    obtain ⟨lds, hLds, rfl⟩ := ldsStep (s.lds.next (.sampling j)) hNext
    refine h.setLds (h.lds.next hLds) ?_ ?_ <;> cases hLds
    · exact h.routed.of_cache rfl h.routed.frame
    · rfl
  | requestExit =>
    obtain ⟨lds, hLds, rfl⟩ := ldsStep (s.lds.next .requestExit) hNext
    refine h.setLds (h.lds.next hLds) ?_ ?_ <;> cases hLds
    · exact h.routed.of_cache rfl h.routed.frame
    · rfl
  | exitSignal =>
    obtain ⟨lds, hLds, rfl⟩ := ldsStep (s.lds.next .exitSignal) hNext
    refine h.setLds (h.lds.next hLds) ?_ ?_ <;> simp only [Lds.next] at hLds <;> split at hLds <;> cases hLds
    · exact h.routed.of_cache rfl h.routed.frame
    · rfl
  | produce =>
    obtain ⟨lds, hLds, rfl⟩ := ldsStep (s.lds.next .produce) hNext
    exact h.setLds (h.lds.next hLds) (h.routed.produce hLds) (Lds.brought_produce h.routed hLds)
  | consume =>
    obtain ⟨lds, hLds, rfl⟩ := ldsStep (s.lds.next .consume) hNext
    obtain ⟨-, -, hFrame, hCache, -⟩ := Lds.consume_unchanged hLds
    exact h.setLds (h.lds.next hLds) (h.routed.of_cache hCache (hFrame ▸ h.routed.frame)) (Lds.brought_consume hLds)

theorem Conserves.run (h : s.Conserves handle i) (hRun : Run s s') : s'.Conserves handle i := by
  induction hRun with
  | refl => exact h
  | tail _ hStep ih =>
    obtain ⟨l, -, hNext⟩ := hStep
    exact ih.next hNext

theorem lddc_next {l : DriverLabel} (hNext : s.next l = some s') : s'.lds.lddc = s.lds.lddc := by
  cases l with
  | receive handle' packet now =>
    obtain ⟨handler, -, rfl⟩ := Option.map_eq_some_iff.mp hNext
    rfl
  | imu timeType =>
    cases hNext
    rfl
  | process now =>
    simp only [Driver.next, Driver.process] at hNext
    split at hNext
    · cases hNext
    · obtain ⟨⟨handler, frame⟩, -, hNext⟩ := Option.bind_eq_some_iff.mp hNext
      obtain ⟨lds, hFrame, hNext⟩ := Option.bind_eq_some_iff.mp hNext
      cases hNext
      exact Lds.lddc_next hFrame
  | register | sampling | requestExit | exitSignal | produce | consume =>
    simp only [Driver.next] at hNext
    obtain ⟨lds, hLds, rfl⟩ := Option.map_eq_some_iff.mp hNext
    exact Lds.lddc_next hLds

theorem lddc_run (hRun : Run s s') : s'.lds.lddc = s.lds.lddc := by
  induction hRun with
  | refl => rfl
  | tail _ hStep ih =>
    obtain ⟨l, -, hNext⟩ := hStep
    exact (lddc_next hNext).trans ih

theorem ok_registered (handles : List UInt32) : (registered handles).Ok := by
  refine List.foldlRecOn handles _ CacheIndex.ok_initial fun cache hCache handle _ => ?_
  exact hCache.getFreeIndex _ _

theorem conserves_initial {config : PointCloudConfig} {lidarExtrinsics : UInt32 → Option ExtParameter} {handles : List UInt32}
    {queueSize : BitVec 32} {lddc : Lddc}
    (hIndex : (registered handles).mapIndex (CacheIndex.keyOf handle) = some i) :
    (initial config lidarExtrinsics handles queueSize lddc).Conserves handle i where
  lds := by
    have hInv := Lds.inv_initial queueSize lddc
    exact hInv.setFlow (hInv.flow.of_contents hInv.flow.ok (fun _ => rfl) rfl rfl rfl) (fun _ => rfl) rfl rfl
  routed := ⟨ok_registered handles, hIndex, nofun⟩
  handles := List.nodup_nil
  points _ := rfl
  brought := rfl
  entries := nofun

section Points

theorem points_visible (packets : List StoragePacket) : points (Lds.visible packets) = points packets := by
  induction packets with
  | nil => rfl
  | cons packet rest ih =>
    cases hPoints : packet.points with
    | nil => simpa [Lds.visible, points, hPoints] using ih
    | cons point more => simpa [Lds.visible, points, hPoints] using ih

theorem accepted_of_all {s : Lds} {i : Index} (h : ∀ entry ∈ s.history i, entry.2 = true) : s.accepted i = s.offered i := by
  rw [Lds.accepted, Lds.offered, List.filter_eq_self.mpr h]

theorem accepted_sublist (s : Lds) (i : Index) : (s.accepted i).Sublist (s.offered i) :=
  List.filter_sublist.map Prod.fst

theorem accepted_eq (h : s.Conserves handle i) : points (s.lds.accepted i) =
    points (s.lds.formattedOn i) ++ points (Lds.inHand i s.lds.consumer) ++ points (s.lds.contents i) := by
  have hAccepted := congrArg points (h.lds.flow.order i)
  simpa only [points_append, points_visible] using hAccepted

theorem decoded_eq (h : s.Conserves handle i) : s.decoded handle = points (s.lds.offered i) ++
    points (Lds.undecided i s.lds.producer) ++ points (framed s.lds.frame handle) ++ s.handler.pending handle := by
  rw [← h.points handle, ← h.brought, Lds.brought, points_append, points_append]

theorem published_sublist (h : s.Conserves handle i) :
    (points (s.lds.publishedOn i)).Sublist (s.decoded handle) :=
  calc
    (points (s.lds.publishedOn i)).Sublist (points (s.lds.formattedOn i)) :=
      (h.lds.flow.sent.publishedOn_sublist i).flatMap _
    List.Sublist _ (points (s.lds.accepted i)) := by
      rw [accepted_eq h, List.append_assoc]
      exact List.sublist_append_left _ _
    List.Sublist _ (points (s.lds.offered i)) := (accepted_sublist s.lds i).flatMap _
    List.Sublist _ (s.decoded handle) := by
      rw [decoded_eq h, List.append_assoc, List.append_assoc]
      exact List.sublist_append_left _ _

/-- A published packet is the entry of a frame. -/
theorem entry_of_published (h : s.Conserves handle i) {packet : StoragePacket} (hPacket : packet ∈ s.lds.publishedOn i) :
    ∃ entry, EntryOk entry ∧ packet = entry.1.stored entry.2 := by
  have hVisible : packet ∈ Lds.visible (s.lds.accepted i) := by
    rw [h.lds.flow.order i, List.append_assoc]
    exact List.mem_append_left _ ((h.lds.flow.sent.publishedOn_sublist i).subset hPacket)
  have hOffered := (accepted_sublist s.lds i).subset (List.mem_filter.mp hVisible).1
  have hFramed : packet ∈ framed s.emitted handle := by
    rw [← h.brought, Lds.brought, List.append_assoc]
    exact List.mem_append_left _ hOffered
  obtain ⟨entry, hEntry, rfl⟩ := List.mem_map.mp hFramed
  exact ⟨entry, h.entries entry (List.mem_filter.mp hEntry).1, rfl⟩

end Points

end Driver

/-- The points published of a configured lidar are points of its raw packets, in order and none of them twice. With
the output to ROS and as long as its queue was never full, each point of its raw packets is published or at one place
on the way there. -/
theorem points_reach_the_topic {config : PointCloudConfig} {lidarExtrinsics : UInt32 → Option ExtParameter}
    {handles : List UInt32} {queueSize : BitVec 32} {lddc : Lddc} {handle : UInt32} {i : Index}
    (hIndex : (Driver.registered handles).mapIndex (CacheIndex.keyOf handle) = some i) {s : Driver}
    (hRun : Driver.Run (.initial config lidarExtrinsics handles queueSize lddc) s) :
    (points (s.lds.publishedOn i)).Sublist (s.decoded handle) ∧
    (lddc.outputType = .toRos → (∀ entry ∈ s.lds.history i, entry.2 = true) →
      s.decoded handle = points (s.lds.publishedOn i) ++ points (Lds.inHand i s.lds.consumer) ++ points (s.lds.contents i) ++
        points (Lds.undecided i s.lds.producer) ++ points (framed s.lds.frame handle) ++ s.handler.pending handle) := by
  have hInitial : (Driver.initial config lidarExtrinsics handles queueSize lddc).Conserves handle i :=
    Driver.conserves_initial hIndex
  have h := hInitial.run hRun
  refine ⟨Driver.published_sublist h, fun hRos hKept => ?_⟩
  have hLddc : s.lds.lddc = lddc := Driver.lddc_run hRun
  have hAccepted := Driver.accepted_eq h
  rw [Driver.accepted_of_all hKept, ← h.lds.flow.sent.publishedOn (hLddc ▸ hRos)] at hAccepted
  rw [Driver.decoded_eq h, hAccepted]

/-- Two packets make a frame, the points of the third still wait with their lidar. -/
theorem points_reach_the_topic_pending : ∃ s : Driver,
    Driver.Run (.initial ⟨10, 5, 1⟩ (fun _ => none) [7] 2 ⟨.livoxCustom, true, .toRos⟩) s ∧
    (s.decoded 7).map PointXyzlt.offsetTime = [100, 200, 300] ∧
    (points (s.lds.publishedOn 0)).map PointXyzlt.offsetTime = [100, 200] ∧
    (points (s.lds.publishedOn 0)).Sublist (s.decoded 7) := by
  let packet : EthernetPacket := ⟨.mid360, 0, 1, 0, .cartesianHigh [⟨1, 2, 3, 4, 5⟩]⟩
  obtain ⟨s, hRun, hPoints⟩ : ∃ s : Driver,
      Driver.Run (.initial ⟨10, 5, 1⟩ (fun _ => none) [7] 2 ⟨.livoxCustom, true, .toRos⟩) s ∧
      ((s.decoded 7).map PointXyzlt.offsetTime, (points (s.lds.publishedOn 0)).map PointXyzlt.offsetTime) =
        ([100, 200, 300], [100, 200]) :=
    Reaches.of_observed ([.sampling 0, .receive 7 packet 100, .receive 7 packet 200, .receive 7 packet 300, .process 0,
      .process 12] ++ List.replicate 12 .produce ++ .process 15 :: List.replicate 13 .consume) _ (by decide +kernel)
  obtain ⟨hDecoded, hPublished⟩ := Prod.mk.inj hPoints
  have hIndex : (Driver.registered [7]).mapIndex (CacheIndex.keyOf 7) = some 0 := by decide +kernel
  exact ⟨s, hRun, hDecoded, hPublished, (points_reach_the_topic hIndex hRun).1⟩

end RoveMapping.Livox
