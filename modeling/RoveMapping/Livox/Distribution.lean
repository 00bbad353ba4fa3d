import RoveMapping.Livox.CacheIndex
import RoveMapping.Livox.LidarDataQueue

/-! # From the frames to the topics

Two threads share the lidars: the one that cuts the frames stores their packets (`StoragePointData`), the poll thread
waits on `pcd_semaphore_` and publishes what it finds in the queues (`DistributePointCloudData`). The threads
interleave at every access to the indices, the flags and the count that they share, and the memory is sequentially
consistent. `clear`, `resize` and `memcpy` are one step each: they work on a slot that the other thread leaves alone
meanwhile. So is `InitQueue`, whose queue is empty before its indices are set and after.
-/
namespace RoveMapping.Livox
set_option autoImplicit false

open Resumption RingBuffer

inductive LidarConnectState where
  | off
  | on
  | config
  | sampling
deriving DecidableEq

inductive TransferFormat where
  | pointCloud2
  | livoxCustom
  | pclPxyzi
  | other
deriving DecidableEq

inductive OutputType where
  | toRos
  | toRosBagFile
  | other
deriving DecidableEq

/-- The parameters of the node that decide what is published where. -/
structure Lddc where
  transferFormat : TransferFormat
  useMultiTopic : Bool
  outputType : OutputType

/-- The publisher that all lidars share, on `livox/lidar`, and those of the single lidars. -/
inductive Publisher where
  | globalPub
  | privatePub (i : Index)
deriving DecidableEq

def Lddc.getCurrentPublisher (lddc : Lddc) (i : Index) : Publisher :=
  if lddc.useMultiTopic then .privatePub i else .globalPub

structure LidarDevice where
  connectState : LidarConnectState
  data : LidarDataQueue

/-- One packet of a frame that has found its index. -/
structure Job where
  index : Index
  data : PointPacket
  baseTime : UInt64

/-- The statements of `PushLidarData`, with those of `QueuePushAny` from `baseTime` on. -/
inductive PushAt where
  | checkStorage
  | checkFull
  | baseTime
  | pointsNum
  | clear
  | resize
  | copy
  | update
  | checkEmpty
  | checkCount
  | signal
deriving DecidableEq

inductive Producer where
  | next
  | push (pc : PushAt) (job : Job)

/-- The statements of the poll thread: `DistributePointCloudData`, `PollingLidarPointCloudData` with the two halves of
its condition, the publishing function of the format, `QueuePop` with the fields that it copies one after the other,
and the look at `future_` after each round. -/
inductive Consumer where
  | start
  | wait
  | lidar (i : ℕ)
  | storage (i : Index)
  | poll (i : Index)
  | pollQueue (i : Index)
  | publish (i : Index)
  | prePop (i : Index)
  | baseTime (i : Index)
  | pointsNum (i : Index) (baseTime : UInt64)
  | points (i : Index) (baseTime : UInt64) (pointsNum : ℕ)
  | popUpdate (i : Index) (packet : StoragePacket)
  | deliver (i : Index) (packet : StoragePacket)
  | future
  | returned

structure Message where
  publisher : Publisher
  index : Index
  packet : StoragePacket

/-- `history` records what was offered to each queue, with whether it went in, `formatted` the packets that messages
were made of, and `published` the messages that were published. -/
structure Lds where
  cache : CacheIndex
  lidars : Index → LidarDevice
  queueSize : BitVec 32
  lddc : Lddc
  count : ℤ
  requestExit : Bool
  exitSignal : Bool
  frame : List (PointPacket × UInt64)
  producer : Producer
  consumer : Consumer
  history : Index → List (StoragePacket × Bool)
  formatted : List (Index × StoragePacket)
  published : List Message

/-- `~DriverNode` requests an exit first, and then sets `exit_signal_`. -/
inductive LdsLabel where
  | register (handle : UInt32)
  | sampling (i : Index)
  | requestExit
  | exitSignal
  | frame (entries : List (PointPacket × UInt64))
  | produce
  | consume

namespace Lds

def initial (queueSize : BitVec 32) (lddc : Lddc) : Lds where
  cache := .initial
  lidars _ := ⟨.off, .unallocated⟩
  queueSize := queueSize
  lddc := lddc
  count := 0
  requestExit := false
  exitSignal := false
  frame := []
  producer := .next
  consumer := .start
  history _ := []
  formatted := []
  published := []

variable (s : Lds)

def queue (i : Index) : LidarDataQueue := (s.lidars i).data

def setQueue (i : Index) (queue : LidarDataQueue) : Lds :=
  { s with lidars := Function.update s.lidars i { s.lidars i with data := queue } }

def log (job : Job) (kept : Bool) : Lds :=
  let history := s.history job.index ++ [(job.data.stored job.baseTime, kept)]
  { s with history := Function.update s.history job.index history }

/-- One access of `PushLidarData`. -/
def push (job : Job) : PushAt → Lds
  | .checkStorage =>
    match (s.queue job.index).storagePacket with
    | some _ => { s with producer := .push .checkFull job }
    | none => { s.setQueue job.index (.initQueue s.queueSize) with producer := .push .checkFull job }
  | .checkFull =>
    if (s.queue job.index).queueIsFull then { s.log job false with producer := .push .checkCount job }
    else { s with producer := .push .baseTime job }
  | .baseTime =>
    { s.setQueue job.index ((s.queue job.index).setBaseTime job.baseTime) with producer := .push .pointsNum job }
  | .pointsNum => { s.setQueue job.index ((s.queue job.index).setPointsNum job.data) with producer := .push .clear job }
  | .clear => { s.setQueue job.index (s.queue job.index).clearPoints with producer := .push .resize job }
  | .resize => { s.setQueue job.index ((s.queue job.index).resizePoints job.data) with producer := .push .copy job }
  | .copy => { s.setQueue job.index ((s.queue job.index).copyPoints job.data) with producer := .push .update job }
  | .update =>
    { (s.setQueue job.index (s.queue job.index).queuePushUpdate).log job true with producer := .push .checkEmpty job }
  | .checkEmpty =>
    { s with producer := if (s.queue job.index).queueIsEmpty then .next else .push .checkCount job }
  | .checkCount => { s with producer := if s.count ≤ 0 then .push .signal job else .next }
  | .signal => { s with count := s.count + 1, producer := .next }

/-- The loop of `StoragePointData` over the packets of a frame. -/
def produce : Option Lds :=
  match s.producer, s.frame with
  | .push pc job, _ => some (s.push job pc)
  | .next, [] => none
  | .next, (data, baseTime) :: rest =>
    match s.cache.getIndex data.lidarType data.handle with
    | some index => some { s with frame := rest, producer := .push .checkStorage ⟨index, data, baseTime⟩ }
    | none => some { s with frame := rest }

/-- A callback of the driver has seen the last setting of the lidar acknowledged. -/
def startSampling (i : Index) : Lds :=
  { s with lidars := Function.update s.lidars i { s.lidars i with connectState := .sampling } }

def goto (consumer : Consumer) : Lds := { s with consumer := consumer }

/-- A message is made of a packet with points, and published only to ROS. -/
def publish (i : Index) (packet : StoragePacket) : Lds :=
  if packet.points.isEmpty then s
  else
    { s with
      formatted := s.formatted ++ [(i, packet)]
      published := if s.lddc.outputType = .toRos then s.published ++ [⟨s.lddc.getCurrentPublisher i, i, packet⟩] else s.published }

/-- One access of the poll thread; a slot that is not there would be an invalid read. -/
def consume : Option Lds :=
  match s.consumer with
  | .start => some (s.goto (if s.requestExit then .future else .wait))
  | .wait => if 0 < s.count then some { s with count := s.count - 1, consumer := .lidar 0 } else none
  | .lidar i =>
    if h : i < kMaxSourceLidar then
      if (s.lidars ⟨i, h⟩).connectState = .sampling then some (s.goto (.storage ⟨i, h⟩)) else some (s.goto (.lidar (i + 1)))
    else some (s.goto .future)
  | .storage i => some (s.goto (if (s.queue i).storagePacket.isNone then .lidar (i + 1) else .poll i))
  | .poll i => some (s.goto (if s.requestExit then .lidar (i + 1) else .pollQueue i))
  | .pollQueue i => some (s.goto (if (s.queue i).queueIsEmpty then .lidar (i + 1) else .publish i))
  | .publish i =>
    match s.lddc.transferFormat with
    | .pointCloud2 | .livoxCustom => some (s.goto (if (s.queue i).queueIsEmpty then .poll i else .prePop i))
    | .pclPxyzi | .other => some (s.goto (.poll i))
  | .prePop i => some (s.goto (if (s.queue i).queueIsEmpty then .publish i else .baseTime i))
  | .baseTime i => (s.queue i).frontSlot.map fun packet => s.goto (.pointsNum i packet.baseTime)
  | .pointsNum i baseTime => (s.queue i).frontSlot.map fun packet => s.goto (.points i baseTime packet.pointsNum)
  | .points i baseTime pointsNum =>
    (s.queue i).frontSlot.map fun packet =>
      s.goto (.popUpdate i ⟨baseTime, pointsNum, packet.points.take pointsNum⟩)
  | .popUpdate i packet => some { s.setQueue i (s.queue i).queuePopUpdate with consumer := .deliver i packet }
  | .deliver i packet => some ((s.publish i packet).goto (.publish i))
  | .future => some (s.goto (if s.exitSignal then .returned else .start))
  | .returned => none

def next : LdsLabel → Option Lds
  | .register handle => some { s with cache := (s.cache.getFreeIndex kLivoxLidarType handle).2 }
  | .sampling i => some (s.startSampling i)
  | .requestExit => some { s with requestExit := true }
  | .exitSignal => if s.requestExit then some { s with exitSignal := true } else none
  | .frame entries =>
    match s.producer, s.frame with
    | .next, [] => some { s with frame := entries }
    | _, _ => none
  | .produce => s.produce
  | .consume => s.consume

section Records

/-- Packets that the publishing functions do not skip. -/
def visible (packets : List StoragePacket) : List StoragePacket := packets.filter fun packet => !packet.points.isEmpty

theorem visible_append (packets packets' : List StoragePacket) :
    visible (packets ++ packets') = visible packets ++ visible packets' := List.filter_append ..

def contents (i : Index) : List StoragePacket := (s.queue i).contents

def offered (i : Index) : List StoragePacket := (s.history i).map Prod.fst
def accepted (i : Index) : List StoragePacket := ((s.history i).filter Prod.snd).map Prod.fst
def formattedOn (i : Index) : List StoragePacket := (s.formatted.filter fun entry => entry.1 = i).map Prod.snd

/-- What is published of one lidar. With `multi_topic` it is what its own topic carries. -/
def publishedOn (i : Index) : List StoragePacket := (s.published.filter fun msg => msg.index = i).map Message.packet

def onTopic (publisher : Publisher) : List StoragePacket :=
  (s.published.filter fun msg => msg.publisher = publisher).map Message.packet

end Records

/-- The packet that has left the queue and no message is made of yet. -/
def inHand (i : Index) : Consumer → List StoragePacket
  | .deliver j packet => if j = i then [packet] else []
  | _ => []

/-- What holds of the queue where `PushLidarData` stands at a statement. -/
def PushAt.Ready (job : Job) (queue : LidarDataQueue) : PushAt → Prop
  | .checkFull => queue.storagePacket.isSome
  | .baseTime => queue.Room
  | .pointsNum => queue.Room ∧ ∃ packet, queue.backSlot = some packet ∧ packet.baseTime = job.baseTime
  | .clear | .resize | .copy => queue.Room ∧ ∃ packet, queue.backSlot = some packet ∧ packet.baseTime = job.baseTime ∧
      packet.pointsNum = job.data.points.length
  | .update => queue.Room ∧ queue.backSlot = some (job.data.stored job.baseTime)
  | .checkStorage | .checkEmpty | .checkCount | .signal => True

/-- What the poll thread has copied is the front of the queue. -/
def Copied (contents : Index → List StoragePacket) : Consumer → Prop
  | .baseTime i => ∃ packet, (contents i).head? = some packet
  | .pointsNum i baseTime => ∃ packet, (contents i).head? = some packet ∧ packet.baseTime = baseTime
  | .points i baseTime pointsNum =>
    ∃ packet, (contents i).head? = some packet ∧ packet.baseTime = baseTime ∧ packet.pointsNum = pointsNum
  | .popUpdate i packet => (contents i).head? = some packet
  | _ => True

/-- Everything that a message was made of has been published, or nothing. -/
def Sent : Prop :=
  s.published =
    if s.lddc.outputType = .toRos then s.formatted.map fun entry => ⟨s.lddc.getCurrentPublisher entry.1, entry.1, entry.2⟩ else []

structure Flow : Prop where
  ok : ∀ i, (s.queue i).Ok
  whole : ∀ i, ∀ packet ∈ s.contents i, packet.Whole
  consumer : Copied s.contents s.consumer
  order : ∀ i, visible (s.accepted i) = s.formattedOn i ++ visible (inHand i s.consumer) ++ visible (s.contents i)
  sent : s.Sent

structure Inv : Prop where
  flow : s.Flow
  producer : ∀ pc job, s.producer = .push pc job → PushAt.Ready job (s.queue job.index) pc
  count : s.count = 0 ∨ s.count = 1
  signal : ∀ job, s.producer = .push .signal job → s.count = 0

theorem contents_initial (queueSize : BitVec 32) (lddc : Lddc) (i : Index) :
    (initial queueSize lddc).contents i = [] := LidarDataQueue.contents_unallocated

theorem inv_initial (queueSize : BitVec 32) (lddc : Lddc) : (initial queueSize lddc).Inv where
  flow.ok _ := LidarDataQueue.ok_unallocated
  flow.whole i packet h := by
    rw [contents_initial] at h
    cases h
  flow.consumer := trivial
  flow.order i := by
    rw [contents_initial]
    rfl
  flow.sent := (ite_self _).symm
  producer _ _ h := by cases h
  count := .inl rfl
  signal _ h := by cases h

variable {s} {s' : Lds}

section Frame

/-- The flow is about the contents of the queues, the poll thread and the records only. -/
theorem Flow.of_contents (h : s.Flow) (hOk : ∀ i, (s'.queue i).Ok) (hContents : ∀ i, s'.contents i = s.contents i)
    (hConsumer : s'.consumer = s.consumer) (hHistory : s'.history = s.history)
    (hMessages : (s'.lddc, s'.formatted, s'.published) = (s.lddc, s.formatted, s.published)) : s'.Flow where
  ok := hOk
  whole i packet hMem := h.whole i packet (hContents i ▸ hMem)
  consumer := by
    rw [hConsumer, funext hContents]
    exact h.consumer
  order i := by
    have hOrder := h.order i
    simp only [Prod.mk.injEq] at hMessages
    simp only [accepted, formattedOn, hConsumer, hContents, hHistory, hMessages] at hOrder ⊢
    exact hOrder
  sent := by
    have hSent := h.sent
    simp only [Prod.mk.injEq] at hMessages
    simp only [Sent, hMessages] at hSent ⊢
    exact hSent

@[simp] theorem queue_setQueue_self (i : Index) (queue : LidarDataQueue) : (s.setQueue i queue).queue i = queue := by
  simp [setQueue, Lds.queue]

theorem queue_setQueue_of_ne {i j : Index} (h : j ≠ i) (queue : LidarDataQueue) :
    (s.setQueue i queue).queue j = s.queue j := by
  simp [setQueue, Lds.queue, h]

theorem contents_setQueue {i : Index} {queue : LidarDataQueue} (j : Index) :
    (s.setQueue i queue).contents j = if j = i then queue.contents else s.contents j := by
  split
  · subst j
    rw [contents, queue_setQueue_self]
  · rw [contents, queue_setQueue_of_ne ‹_›]
    rfl

theorem contents_setQueue_eq {i : Index} {queue : LidarDataQueue} (h : queue.contents = s.contents i) (j : Index) :
    (s.setQueue i queue).contents j = s.contents j := by
  rw [contents_setQueue]
  split
  · subst j
    exact h
  · rfl

@[simp] theorem connectState_setQueue (i j : Index) (queue : LidarDataQueue) :
    ((s.setQueue i queue).lidars j).connectState = (s.lidars j).connectState := by
  by_cases hj : j = i
  · subst hj
    simp [setQueue]
  · simp [setQueue, hj]

theorem Flow.ok_setQueue (h : s.Flow) {i : Index} {queue : LidarDataQueue} (hOk : queue.Ok) (j : Index) :
    ((s.setQueue i queue).queue j).Ok := by
  by_cases hj : j = i
  · subst hj
    rwa [queue_setQueue_self]
  · rw [queue_setQueue_of_ne hj]
    exact h.ok j

theorem Flow.setQueue (h : s.Flow) {i : Index} {queue : LidarDataQueue} (hOk : queue.Ok)
    (hContents : queue.contents = s.contents i) : (s.setQueue i queue).Flow :=
  h.of_contents (h.ok_setQueue hOk) (contents_setQueue_eq hContents) rfl rfl rfl

theorem Flow.setProducer (h : s.Flow) (producer : Producer) : Flow { s with producer := producer } :=
  h.of_contents h.ok (fun _ => rfl) rfl rfl rfl

theorem Flow.setSlot (h : s.Flow) {i : Index} (hRoom : (s.queue i).Room) (f : StoragePacket → StoragePacket) :
    (s.setQueue i ((s.queue i).setSlot f)).Flow :=
  h.setQueue ((h.ok i).setSlot hRoom f) ((h.ok i).contents_setSlot hRoom f)

end Frame

section Moves

theorem accepted_log (job : Job) (kept : Bool) (i : Index) :
    (s.log job kept).accepted i =
      s.accepted i ++ if job.index = i ∧ kept then [job.data.stored job.baseTime] else [] := by
  by_cases hi : job.index = i
  · subst hi
    cases kept <;> simp [accepted, log]
  · simp [accepted, log, hi, Function.update_of_ne (Ne.symm hi)]

theorem Flow.drop (h : s.Flow) (job : Job) : (s.log job false).Flow where
  ok := h.ok
  whole := h.whole
  consumer := h.consumer
  order i := by
    rw [accepted_log, if_neg (by simp), List.append_nil]
    exact h.order i
  sent := h.sent

theorem head?_append_of_some {α : Type} {xs ys : List α} {a : α} (h : xs.head? = some a) : (xs ++ ys).head? = some a := by
  rw [List.head?_append, h]
  rfl

/-- More packets behind the front leave what the poll thread has copied. -/
theorem Copied.append {contents contents' : Index → List StoragePacket} {consumer : Consumer} (h : Copied contents consumer)
    (hContents : ∀ i, ∃ more, contents' i = contents i ++ more) : Copied contents' consumer := by
  have hHead (i : Index) {packet : StoragePacket} (hSome : (contents i).head? = some packet) :
      (contents' i).head? = some packet := by
    obtain ⟨more, hMore⟩ := hContents i
    rw [hMore]
    exact head?_append_of_some hSome
  cases consumer with
  | baseTime i => exact h.imp fun _ hSome => hHead i hSome
  | pointsNum i baseTime => exact h.imp fun _ hSome => ⟨hHead i hSome.1, hSome.2⟩
  | points i baseTime pointsNum => exact h.imp fun _ hSome => ⟨hHead i hSome.1, hSome.2⟩
  | popUpdate i packet => exact hHead i h
  | _ => trivial

theorem contents_store (h : s.Flow) {job : Job} (hRoom : (s.queue job.index).Room)
    (hBack : (s.queue job.index).backSlot = some (job.data.stored job.baseTime)) (i : Index) :
    (s.setQueue job.index (s.queue job.index).queuePushUpdate).contents i =
      s.contents i ++ if job.index = i then [job.data.stored job.baseTime] else [] := by
  rw [contents_setQueue]
  by_cases hi : i = job.index
  · subst hi
    rw [if_pos rfl, if_pos rfl, (h.ok job.index).contents_push hRoom hBack]
    rfl
  · rw [if_neg hi, if_neg (Ne.symm hi), List.append_nil]

theorem Flow.store (h : s.Flow) {job : Job} (hRoom : (s.queue job.index).Room)
    (hBack : (s.queue job.index).backSlot = some (job.data.stored job.baseTime)) :
    ((s.setQueue job.index (s.queue job.index).queuePushUpdate).log job true).Flow := by
  have hContents (i : Index) : ((s.setQueue job.index (s.queue job.index).queuePushUpdate).log job true).contents i =
      s.contents i ++ if job.index = i then [job.data.stored job.baseTime] else [] := contents_store h hRoom hBack i
  refine ⟨fun i => ?_, fun i packet hMem => ?_, ?_, fun i => ?_, h.sent⟩
  · exact h.ok_setQueue ((h.ok job.index).push hRoom hBack) i
  · rw [hContents] at hMem
    rcases List.mem_append.mp hMem with hOld | hNew
    · exact h.whole i packet hOld
    · split at hNew
      · rw [List.mem_singleton.mp hNew]
        rfl
      · cases hNew
  · exact h.consumer.append fun i => ⟨_, hContents i⟩
  · rw [accepted_log, hContents, visible_append, visible_append, ← List.append_assoc]
    show visible (s.accepted i) ++ _ = s.formattedOn i ++ visible (inHand i s.consumer) ++ visible (s.contents i) ++ _
    rw [h.order i]
    simp only [and_true]

theorem Flow.goto (h : s.Flow) {now consumer : Consumer} (hConsumer : s.consumer = now) (hNow : ∀ i, inHand i now = [])
    (hNext : ∀ i, inHand i consumer = []) (hCopied : Copied s.contents consumer) : (s.goto consumer).Flow where
  ok := h.ok
  whole := h.whole
  consumer := hCopied
  order i := by
    have hOrder := h.order i
    rw [hConsumer, hNow] at hOrder
    rw [show (s.goto consumer).consumer = consumer from rfl, hNext]
    exact hOrder
  sent := h.sent

theorem cons_of_head? {α : Type} {xs : List α} {a : α} (h : xs.head? = some a) : ∃ rest, xs = a :: rest := by
  cases xs with
  | nil => cases h
  | cons x rest =>
    cases h
    exact ⟨rest, rfl⟩

theorem Flow.pop (h : s.Flow) {i : Index} {packet : StoragePacket} (hConsumer : s.consumer = .popUpdate i packet) :
    Flow { s.setQueue i (s.queue i).queuePopUpdate with consumer := .deliver i packet } := by
  have hHead := h.consumer
  rw [hConsumer] at hHead
  obtain ⟨rest, hRest⟩ := cons_of_head? hHead
  have hContents (j : Index) : (s.setQueue i (s.queue i).queuePopUpdate).contents j = if j = i then rest else s.contents j := by
    rw [contents_setQueue, (h.ok i).contents_pop hRest]
  refine ⟨h.ok_setQueue ((h.ok i).pop hRest), fun j other hMem => ?_, trivial, fun j => ?_, h.sent⟩
  · have hMem' : other ∈ (s.setQueue i (s.queue i).queuePopUpdate).contents j := hMem
    rw [hContents] at hMem'
    split at hMem'
    · exact h.whole i other (hRest ▸ List.mem_cons_of_mem _ hMem')
    · exact h.whole j other hMem'
  · show visible (s.accepted j) = s.formattedOn j ++ visible (inHand j (.deliver i packet)) ++
      visible ((s.setQueue i (s.queue i).queuePopUpdate).contents j)
    have hOrder := h.order j
    rw [hConsumer, show inHand j (.popUpdate i packet) = [] from rfl, show visible [] = [] from rfl,
      List.append_nil] at hOrder
    rw [hContents, hOrder]
    by_cases hj : j = i
    · subst hj
      rw [if_pos rfl, inHand, if_pos rfl, hRest, List.append_assoc, ← visible_append]
      rfl
    · rw [if_neg hj, inHand, if_neg (Ne.symm hj), show visible [] = [] from rfl, List.append_nil]

theorem formattedOn_publish (i : Index) (packet : StoragePacket) (j : Index) :
    (s.publish i packet).formattedOn j = s.formattedOn j ++ visible (inHand j (.deliver i packet)) := by
  by_cases hj : i = j <;> by_cases hEmpty : packet.points.isEmpty <;>
    simp [publish, formattedOn, inHand, visible, hj, hEmpty]

theorem Sent.publish (h : s.Sent) (i : Index) (packet : StoragePacket) : (s.publish i packet).Sent := by
  rw [Sent] at h
  by_cases hEmpty : packet.points.isEmpty
  · simpa [Sent, Lds.publish, hEmpty] using h
  · by_cases hRos : s.lddc.outputType = .toRos <;> simp [Sent, Lds.publish, hEmpty, hRos, h]

theorem publish_unchanged (s : Lds) (i : Index) (packet : StoragePacket) :
    ∃ formatted published, s.publish i packet = { s with formatted := formatted, published := published } := by
  rw [Lds.publish]
  split
  · exact ⟨_, _, rfl⟩
  · exact ⟨_, _, rfl⟩

theorem Flow.deliver (h : s.Flow) {i : Index} {packet : StoragePacket} (hConsumer : s.consumer = .deliver i packet) :
    ((s.publish i packet).goto (.publish i)).Flow := by
  have hFormatted := formattedOn_publish (s := s) i packet
  have hSent := h.sent.publish i packet
  obtain ⟨formatted, published, hPublish⟩ := publish_unchanged s i packet
  rw [hPublish] at hFormatted hSent ⊢
  refine ⟨h.ok, h.whole, trivial, fun j => ?_, hSent⟩
  show visible (s.accepted j) = formattedOn { s with formatted := formatted, published := published } j ++ visible [] ++
    visible (s.contents j)
  rw [hFormatted, h.order j, hConsumer, show visible [] = [] from rfl, List.append_nil]

end Moves

section Steps

theorem Inv.setFlow (h : s.Inv) (hFlow : s'.Flow) (hQueue : ∀ i, s'.queue i = s.queue i) (hProducer : s'.producer = s.producer)
    (hCount : s'.count = s.count) : s'.Inv where
  flow := hFlow
  producer pc job hPush := by
    rw [hQueue]
    exact h.producer pc job (hProducer ▸ hPush)
  count := hCount ▸ h.count
  signal job hPush := hCount ▸ h.signal job (hProducer ▸ hPush)

theorem Inv.goto (h : s.Inv) {now consumer : Consumer} (hConsumer : s.consumer = now) (hNow : ∀ i, inHand i now = [])
    (hNext : ∀ i, inHand i consumer = []) (hCopied : Copied s.contents consumer) : (s.goto consumer).Inv :=
  h.setFlow (h.flow.goto hConsumer hNow hNext hCopied) (fun _ => rfl) rfl rfl

theorem Ready.pop {job : Job} {queue : LidarDataQueue} {packet : StoragePacket} {rest : List StoragePacket} {pc : PushAt}
    (h : PushAt.Ready job queue pc) (hOk : queue.Ok) (hContents : queue.contents = packet :: rest) :
    PushAt.Ready job queue.queuePopUpdate pc := by
  cases pc with
  | checkFull => exact h
  | baseTime => exact hOk.room_pop hContents h
  | pointsNum | clear | resize | copy | update => exact ⟨hOk.room_pop hContents h.1, h.2⟩
  | checkStorage | checkEmpty | checkCount | signal => trivial

theorem Inv.pop (h : s.Inv) {i : Index} {packet : StoragePacket} (hConsumer : s.consumer = .popUpdate i packet) :
    Inv { s.setQueue i (s.queue i).queuePopUpdate with consumer := .deliver i packet } where
  flow := h.flow.pop hConsumer
  producer pc job hPush := by
    have hReady := h.producer pc job hPush
    have hHead := h.flow.consumer
    rw [hConsumer] at hHead
    obtain ⟨rest, hRest⟩ := cons_of_head? hHead
    show PushAt.Ready job ((s.setQueue i (s.queue i).queuePopUpdate).queue job.index) pc
    by_cases hi : job.index = i
    · rw [hi] at hReady ⊢
      rw [queue_setQueue_self]
      exact Ready.pop hReady (h.flow.ok i) hRest
    · rwa [queue_setQueue_of_ne hi]
  count := h.count
  signal := h.signal

theorem head?_of_not_empty (h : s.Inv) {i : Index} (hEmpty : (s.queue i).queueIsEmpty = false) :
    ∃ packet, (s.contents i).head? = some packet := by
  cases hContents : s.contents i with
  | nil =>
    rw [(h.flow.ok i).empty_iff.mpr hContents] at hEmpty
    cases hEmpty
  | cons packet rest => exact ⟨packet, rfl⟩

theorem frontSlot_of_head? (h : s.Inv) {i : Index} {packet : StoragePacket} (hHead : (s.contents i).head? = some packet) :
    (s.queue i).frontSlot = some packet := by
  obtain ⟨rest, hRest⟩ := cons_of_head? hHead
  exact (h.flow.ok i).frontSlot_eq hRest

theorem Inv.consume (h : s.Inv) (hNext : s.consume = some s') : s'.Inv := by
  have hCopied := h.flow.consumer
  cases hConsumer : s.consumer with
  | start =>
    simp only [Lds.consume, hConsumer, Option.some_inj] at hNext
    subst hNext
    split <;> exact h.goto hConsumer (fun _ => rfl) (fun _ => rfl) trivial
  | wait =>
    simp only [Lds.consume, hConsumer] at hNext
    split at hNext
    · rename_i hPos
      cases hNext
      have hGoto : (s.goto (.lidar 0)).Flow := h.flow.goto hConsumer (fun _ => rfl) (fun _ => rfl) trivial
      have hFlow : Flow { s with count := s.count - 1, consumer := .lidar 0 } :=
        hGoto.of_contents hGoto.ok (fun _ => rfl) rfl rfl rfl
      refine ⟨hFlow, h.producer, ?_, fun job hPush => ?_⟩
      · have hCount := h.count
        left
        show s.count - 1 = 0
        omega
      · have hZero := h.signal job hPush
        omega
    · cases hNext
  | lidar i =>
    simp only [Lds.consume, hConsumer] at hNext
    split at hNext
    · split at hNext <;> cases hNext <;> exact h.goto hConsumer (fun _ => rfl) (fun _ => rfl) trivial
    · cases hNext
      exact h.goto hConsumer (fun _ => rfl) (fun _ => rfl) trivial
  | storage i | poll i | pollQueue i | future =>
    simp only [Lds.consume, hConsumer, Option.some_inj] at hNext
    subst hNext
    split <;> exact h.goto hConsumer (fun _ => rfl) (fun _ => rfl) trivial
  | publish i =>
    simp only [Lds.consume, hConsumer] at hNext
    split at hNext <;> cases hNext
    · split <;> exact h.goto hConsumer (fun _ => rfl) (fun _ => rfl) trivial
    · split <;> exact h.goto hConsumer (fun _ => rfl) (fun _ => rfl) trivial
    · exact h.goto hConsumer (fun _ => rfl) (fun _ => rfl) trivial
    · exact h.goto hConsumer (fun _ => rfl) (fun _ => rfl) trivial
  | prePop i =>
    simp only [Lds.consume, hConsumer, Option.some_inj] at hNext
    subst hNext
    split
    · exact h.goto hConsumer (fun _ => rfl) (fun _ => rfl) trivial
    · rename_i hEmpty
      exact h.goto hConsumer (fun _ => rfl) (fun _ => rfl)
        (head?_of_not_empty h (Bool.eq_false_iff.mpr hEmpty))
  | baseTime i =>
    rw [hConsumer] at hCopied
    obtain ⟨packet, hHead⟩ := hCopied
    simp only [Lds.consume, hConsumer, frontSlot_of_head? h hHead, Option.map_some, Option.some_inj] at hNext
    subst hNext
    exact h.goto hConsumer (fun _ => rfl) (fun _ => rfl) ⟨packet, hHead, rfl⟩
  | pointsNum i baseTime =>
    rw [hConsumer] at hCopied
    obtain ⟨packet, hHead, hBase⟩ := hCopied
    simp only [Lds.consume, hConsumer, frontSlot_of_head? h hHead, Option.map_some, Option.some_inj] at hNext
    subst hNext
    exact h.goto hConsumer (fun _ => rfl) (fun _ => rfl) ⟨packet, hHead, hBase, rfl⟩
  | points i baseTime pointsNum =>
    rw [hConsumer] at hCopied
    obtain ⟨packet, hHead, rfl, rfl⟩ := hCopied
    simp only [Lds.consume, hConsumer, frontSlot_of_head? h hHead, Option.map_some, Option.some_inj] at hNext
    subst hNext
    obtain ⟨rest, hRest⟩ := cons_of_head? hHead
    have hWhole : packet.Whole := h.flow.whole i packet (hRest ▸ List.mem_cons_self)
    have hTake : packet.points.take packet.pointsNum = packet.points := List.take_of_length_le hWhole.ge
    refine h.goto hConsumer (fun _ => rfl) (fun _ => rfl) ?_
    show (s.contents i).head? = some ⟨packet.baseTime, packet.pointsNum, packet.points.take packet.pointsNum⟩
    rw [hHead, hTake]
  | popUpdate i packet =>
    simp only [Lds.consume, hConsumer, Option.some_inj] at hNext
    subst hNext
    exact h.pop hConsumer
  | deliver i packet =>
    simp only [Lds.consume, hConsumer, Option.some_inj] at hNext
    subst hNext
    have hFlow := h.flow.deliver hConsumer
    obtain ⟨formatted, published, hPublish⟩ := publish_unchanged s i packet
    rw [hPublish] at hFlow ⊢
    exact h.setFlow hFlow (fun _ => rfl) rfl rfl
  | returned => simp only [Lds.consume, hConsumer, reduceCtorEq] at hNext

/-- A statement that writes into the slot behind the queue. -/
theorem Inv.fill (h : s.Inv) {job : Job} (hRoom : (s.queue job.index).Room) (f : StoragePacket → StoragePacket)
    {pc : PushAt} (hSignal : pc ≠ .signal) (hReady : PushAt.Ready job ((s.queue job.index).setSlot f) pc) :
    Inv { s.setQueue job.index ((s.queue job.index).setSlot f) with producer := .push pc job } where
  flow := (h.flow.setSlot hRoom f).setProducer (.push pc job)
  producer pc' job' hPush := by
    cases hPush
    show PushAt.Ready job ((s.setQueue job.index ((s.queue job.index).setSlot f)).queue job.index) pc
    rwa [queue_setQueue_self]
  count := h.count
  signal job' hPush := by
    cases hPush
    exact absurd rfl hSignal

theorem Inv.setProducer (h : s.Inv) {producer : Producer}
    (hReady : ∀ pc job, producer = .push pc job → PushAt.Ready job (s.queue job.index) pc)
    (hSignal : ∀ job, producer = .push .signal job → s.count = 0) : Inv { s with producer := producer } where
  flow := h.flow.setProducer producer
  producer := hReady
  count := h.count
  signal := hSignal

theorem Inv.push (h : s.Inv) {pc : PushAt} {job : Job} (hPush : s.producer = .push pc job) : (s.push job pc).Inv := by
  have hReady := h.producer pc job hPush
  have hOk := h.flow.ok job.index
  cases pc with
  | checkStorage =>
    simp only [Lds.push]
    split
    · rename_i slots hStorage
      refine h.setProducer (fun pc' job' hEq => ?_) nofun
      cases hEq
      exact Option.isSome_iff_exists.mpr ⟨slots, hStorage⟩
    · rename_i hStorage
      have hContents : (LidarDataQueue.initQueue s.queueSize).contents = s.contents job.index :=
        (LidarDataQueue.contents_initQueue _).trans (hOk.contents_of_none hStorage).symm
      refine ⟨(h.flow.setQueue (LidarDataQueue.ok_initQueue _) hContents).setProducer _, fun pc' job' hEq => ?_, h.count, nofun⟩
      cases hEq
      show ((s.setQueue job.index (.initQueue s.queueSize)).queue job.index).storagePacket.isSome
      rw [queue_setQueue_self]
      rfl
  | checkFull =>
    simp only [Lds.push]
    split
    · refine ⟨(h.flow.drop job).setProducer _, fun pc' job' hEq => ?_, h.count, nofun⟩
      cases hEq
      trivial
    · rename_i hFull
      refine h.setProducer (fun pc' job' hEq => ?_) nofun
      cases hEq
      exact hOk.room_of_not_full hReady (Bool.eq_false_iff.mpr hFull)
  | baseTime =>
    obtain ⟨packet, hBack⟩ := Option.isSome_iff_exists.mp (hOk.backSlot_isSome hReady)
    exact h.fill hReady _ nofun ⟨hOk.room_setSlot hReady _, _, LidarDataQueue.backSlot_setSlot_of_some hBack _, rfl⟩
  | pointsNum =>
    obtain ⟨hRoom, packet, hBack, hBase⟩ := hReady
    exact h.fill hRoom _ nofun
      ⟨hOk.room_setSlot hRoom _, _, LidarDataQueue.backSlot_setSlot_of_some hBack _, hBase, rfl⟩
  | clear | resize =>
    obtain ⟨hRoom, packet, hBack, hBase, hNum⟩ := hReady
    exact h.fill hRoom _ nofun
      ⟨hOk.room_setSlot hRoom _, _, LidarDataQueue.backSlot_setSlot_of_some hBack _, hBase, hNum⟩
  | copy =>
    obtain ⟨hRoom, packet, hBack, hBase, hNum⟩ := hReady
    refine h.fill hRoom _ nofun ⟨hOk.room_setSlot hRoom _, ?_⟩
    rw [LidarDataQueue.backSlot_setSlot_of_some hBack, PointPacket.stored, ← hBase, ← hNum]
  | update =>
    refine ⟨(h.flow.store hReady.1 hReady.2).setProducer _, fun pc' job' hEq => ?_, h.count, nofun⟩
    cases hEq
    trivial
  | checkEmpty =>
    refine h.setProducer (fun pc' job' hEq => ?_) fun job' hEq => ?_ <;> split at hEq <;> cases hEq
    trivial
  | checkCount =>
    refine h.setProducer (fun pc' job' hEq => ?_) fun job' hEq => ?_ <;> split at hEq <;> cases hEq
    · trivial
    · have hCount := h.count
      omega
  | signal =>
    have hZero := h.signal job hPush
    refine ⟨(h.flow.setProducer .next).of_contents h.flow.ok (fun _ => rfl) rfl rfl rfl, nofun, ?_, nofun⟩
    right
    show s.count + 1 = 1
    omega

section Unchanged

variable (s) (job : Job) (pc : PushAt)

theorem push_unchanged : (s.push job pc).consumer = s.consumer ∧ (s.push job pc).requestExit = s.requestExit ∧
    (s.push job pc).exitSignal = s.exitSignal ∧ (s.push job pc).lddc = s.lddc ∧
    (s.push job pc).formatted = s.formatted ∧ (s.push job pc).published = s.published := by
  cases pc with
  | checkStorage | checkFull =>
    simp only [Lds.push]
    split <;> exact ⟨rfl, rfl, rfl, rfl, rfl, rfl⟩
  | _ => exact ⟨rfl, rfl, rfl, rfl, rfl, rfl⟩

theorem connectState_push (i : Index) : ((s.push job pc).lidars i).connectState = (s.lidars i).connectState := by
  cases pc with
  | checkStorage =>
    simp only [Lds.push]
    split
    · rfl
    · exact connectState_setQueue ..
  | checkFull =>
    simp only [Lds.push]
    split <;> rfl
  | baseTime | pointsNum | clear | resize | copy | update => exact connectState_setQueue ..
  | checkEmpty | checkCount | signal => rfl

end Unchanged

theorem consume_unchanged (hNext : s.consume = some s') : s'.history = s.history ∧ s'.producer = s.producer ∧
    s'.frame = s.frame ∧ s'.cache = s.cache ∧ s'.requestExit = s.requestExit ∧ s'.exitSignal = s.exitSignal ∧
      s'.lddc = s.lddc := by
  have hGoto (consumer : Consumer) (hEq : some (s.goto consumer) = some s') :
      s'.history = s.history ∧ s'.producer = s.producer ∧ s'.frame = s.frame ∧ s'.cache = s.cache ∧
        s'.requestExit = s.requestExit ∧ s'.exitSignal = s.exitSignal ∧ s'.lddc = s.lddc := by
    cases hEq
    exact ⟨rfl, rfl, rfl, rfl, rfl, rfl, rfl⟩
  cases hConsumer : s.consumer with
  | start | storage i | poll i | pollQueue i | prePop i | future =>
    simp only [Lds.consume, hConsumer] at hNext
    exact hGoto _ hNext
  | wait =>
    simp only [Lds.consume, hConsumer] at hNext
    split at hNext <;> cases hNext
    exact ⟨rfl, rfl, rfl, rfl, rfl, rfl, rfl⟩
  | lidar i =>
    simp only [Lds.consume, hConsumer] at hNext
    split at hNext
    · split at hNext <;> exact hGoto _ hNext
    · exact hGoto _ hNext
  | publish i =>
    simp only [Lds.consume, hConsumer] at hNext
    split at hNext <;> exact hGoto _ hNext
  | baseTime i | pointsNum i baseTime | points i baseTime pointsNum =>
    simp only [Lds.consume, hConsumer, Option.map_eq_some_iff] at hNext
    obtain ⟨packet, -, rfl⟩ := hNext
    exact ⟨rfl, rfl, rfl, rfl, rfl, rfl, rfl⟩
  | popUpdate i packet =>
    simp only [Lds.consume, hConsumer, Option.some_inj] at hNext
    subst hNext
    exact ⟨rfl, rfl, rfl, rfl, rfl, rfl, rfl⟩
  | deliver i packet =>
    simp only [Lds.consume, hConsumer, Option.some_inj] at hNext
    obtain ⟨formatted, published, hPublish⟩ := publish_unchanged s i packet
    rw [hPublish] at hNext
    subst hNext
    exact ⟨rfl, rfl, rfl, rfl, rfl, rfl, rfl⟩
  | returned => simp only [Lds.consume, hConsumer, reduceCtorEq] at hNext

/-- Only the increment of `wr_idx` changes what a queue contains. -/
theorem Inv.contents_push (h : s.Inv) {pc : PushAt} {job : Job} (hPush : s.producer = .push pc job) (hPc : pc ≠ .update)
    (i : Index) : (s.push job pc).contents i = s.contents i := by
  have hReady := h.producer pc job hPush
  have hOk := h.flow.ok job.index
  have hFill (f : StoragePacket → StoragePacket) (hRoom : (s.queue job.index).Room) :
      (s.setQueue job.index ((s.queue job.index).setSlot f)).contents i = s.contents i :=
    contents_setQueue_eq (hOk.contents_setSlot hRoom f) i
  cases pc with
  | checkStorage =>
    simp only [Lds.push]
    split
    · rfl
    · exact contents_setQueue_eq ((LidarDataQueue.contents_initQueue _).trans (hOk.contents_of_none ‹_›).symm) i
  | checkFull =>
    simp only [Lds.push]
    split <;> rfl
  | baseTime => exact hFill _ hReady
  | pointsNum | clear | resize | copy => exact hFill _ hReady.1
  | update => exact absurd rfl hPc
  | checkEmpty | checkCount | signal => rfl

theorem Inv.contents_update (h : s.Inv) {job : Job} (hPush : s.producer = .push .update job) (i : Index) :
    (s.push job .update).contents i = s.contents i ++ if job.index = i then [job.data.stored job.baseTime] else [] := by
  obtain ⟨hRoom, hBack⟩ := h.producer .update job hPush
  exact contents_store h.flow hRoom hBack i

theorem Inv.produce (h : s.Inv) (hNext : s.produce = some s') : s'.Inv := by
  rw [Lds.produce] at hNext
  split at hNext
  · rename_i pc job hPush
    cases hNext
    exact h.push hPush
  · cases hNext
  · split at hNext <;> cases hNext
    · refine ⟨h.flow.of_contents h.flow.ok (fun _ => rfl) rfl rfl rfl, fun pc job hEq => ?_, h.count, nofun⟩
      cases hEq
      trivial
    · exact h.setFlow (h.flow.of_contents h.flow.ok (fun _ => rfl) rfl rfl rfl) (fun _ => rfl) rfl rfl

theorem queue_startSampling (i j : Index) : (s.startSampling i).queue j = s.queue j := by
  by_cases hj : j = i
  · subst hj
    simp [startSampling, Lds.queue]
  · simp [startSampling, Lds.queue, hj]

theorem Inv.next {l : LdsLabel} (h : s.Inv) (hNext : s.next l = some s') : s'.Inv := by
  cases l with
  | register handle =>
    cases hNext
    exact h.setFlow (h.flow.of_contents h.flow.ok (fun _ => rfl) rfl rfl rfl) (fun _ => rfl) rfl rfl
  | sampling i =>
    cases hNext
    refine h.setFlow (h.flow.of_contents (fun j => ?_) (fun j => ?_) rfl rfl rfl) (queue_startSampling i) rfl rfl
    · rw [queue_startSampling]
      exact h.flow.ok j
    · rw [contents, queue_startSampling]
      rfl
  | requestExit =>
    cases hNext
    exact h.setFlow (h.flow.of_contents h.flow.ok (fun _ => rfl) rfl rfl rfl) (fun _ => rfl) rfl rfl
  | exitSignal =>
    simp only [Lds.next] at hNext
    split at hNext
    · cases hNext
      exact h.setFlow (h.flow.of_contents h.flow.ok (fun _ => rfl) rfl rfl rfl) (fun _ => rfl) rfl rfl
    · cases hNext
  | frame entries =>
    simp only [Lds.next] at hNext
    split at hNext
    · cases hNext
      exact h.setFlow (h.flow.of_contents h.flow.ok (fun _ => rfl) rfl rfl rfl) (fun _ => rfl) rfl rfl
    · cases hNext
  | produce => exact h.produce hNext
  | consume => exact h.consume hNext

end Steps

section Runs

/-- Any thread may take the next step. -/
abbrev Run : Lds → Lds → Prop := Reaches next fun _ _ => True

theorem Inv.run (h : s.Inv) (hRun : Run s s') : s'.Inv := by
  induction hRun with
  | refl => exact h
  | tail _ hStep ih =>
    obtain ⟨l, -, hNext⟩ := hStep
    exact ih.next hNext

theorem lddc_next {l : LdsLabel} (hNext : s.next l = some s') : s'.lddc = s.lddc := by
  cases l with
  | register handle | sampling i | requestExit =>
    cases hNext
    rfl
  | exitSignal | frame entries =>
    simp only [Lds.next] at hNext
    split at hNext <;> cases hNext
    rfl
  | produce =>
    rw [Lds.next, Lds.produce] at hNext
    split at hNext
    · rename_i pc job _
      cases hNext
      exact (push_unchanged s job pc).2.2.2.1
    · cases hNext
    · split at hNext <;> cases hNext <;> rfl
  | consume => exact (consume_unchanged hNext).2.2.2.2.2.2

/-- The exit is not taken back, and `exit_signal_` is set after the request. -/
theorem exit_next {l : LdsLabel} (hNext : s.next l = some s') : (s.requestExit = true → s'.requestExit = true) ∧
    (s.exitSignal = true → s'.exitSignal = true) ∧ (s'.exitSignal = true → s.exitSignal = true ∨ s'.requestExit = true) := by
  have hSame (hExit : s'.requestExit = s.requestExit) (hSignal : s'.exitSignal = s.exitSignal) :
      (s.requestExit = true → s'.requestExit = true) ∧ (s.exitSignal = true → s'.exitSignal = true) ∧
        (s'.exitSignal = true → s.exitSignal = true ∨ s'.requestExit = true) :=
    ⟨hExit.trans, hSignal.trans, fun h => .inl (hSignal ▸ h)⟩
  cases l with
  | register handle | sampling i =>
    cases hNext
    exact hSame rfl rfl
  | requestExit =>
    cases hNext
    exact ⟨fun _ => rfl, id, .inl⟩
  | exitSignal =>
    simp only [Lds.next] at hNext
    split at hNext <;> cases hNext
    exact ⟨id, fun _ => rfl, fun _ => .inr ‹_›⟩
  | frame entries =>
    simp only [Lds.next] at hNext
    split at hNext <;> cases hNext
    exact hSame rfl rfl
  | produce =>
    rw [Lds.next, Lds.produce] at hNext
    split at hNext
    · rename_i pc job _
      cases hNext
      exact hSame (push_unchanged s job pc).2.1 (push_unchanged s job pc).2.2.1
    · cases hNext
    · split at hNext <;> cases hNext <;> exact hSame rfl rfl
  | consume => exact hSame (consume_unchanged hNext).2.2.2.2.1 (consume_unchanged hNext).2.2.2.2.2.1

theorem lddc_run (hRun : Run s s') : s'.lddc = s.lddc := by
  induction hRun with
  | refl => rfl
  | tail _ hStep ih =>
    obtain ⟨l, -, hNext⟩ := hStep
    exact (lddc_next hNext).trans ih

end Runs

section Topics

theorem Sent.publishedOn (h : s.Sent) (hRos : s.lddc.outputType = .toRos) (i : Index) :
    s.publishedOn i = s.formattedOn i := by
  rw [Lds.publishedOn, Lds.formattedOn, h, if_pos hRos, List.filter_map, List.map_map]
  rfl

theorem Sent.publishedOn_sublist (h : s.Sent) (i : Index) : (s.publishedOn i).Sublist (s.formattedOn i) := by
  by_cases hRos : s.lddc.outputType = .toRos
  · rw [h.publishedOn hRos]
  · rw [Lds.publishedOn, h, if_neg hRos]
    exact List.nil_sublist _

/-- With topics of their own a lidar's topic carries its packets, else the shared topic carries all. -/
theorem Sent.onTopic (h : s.Sent) (i : Index) : s.onTopic (s.lddc.getCurrentPublisher i) =
    if s.lddc.useMultiTopic then s.publishedOn i else s.published.map Message.packet := by
  have hPublisher : ∀ msg ∈ s.published, msg.publisher = s.lddc.getCurrentPublisher msg.index := by
    intro msg hMsg
    rw [h] at hMsg
    split at hMsg
    · obtain ⟨entry, -, rfl⟩ := List.mem_map.mp hMsg
      rfl
    · cases hMsg
  rw [Lds.onTopic]
  split
  · rename_i hMulti
    rw [Lds.publishedOn]
    refine congrArg _ (List.filter_congr fun msg hMsg => ?_)
    simp [hPublisher msg hMsg, Lddc.getCurrentPublisher, hMulti]
  · rename_i hShared
    refine congrArg _ (List.filter_eq_self.mpr fun msg hMsg => ?_)
    simp [hPublisher msg hMsg, Lddc.getCurrentPublisher, hShared]

end Topics

end Lds

end RoveMapping.Livox
