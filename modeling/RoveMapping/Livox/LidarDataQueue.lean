import RoveMapping.Library.RingBuffer

/-! # The packet queue of a lidar

The queue of `ldq.cpp`: `storage_packet` is allocated on the first packet, `rd_idx` and `wr_idx` wrap at `2 ^ 32`.
The functions are cut into the accesses that two threads can interleave.
-/
namespace RoveMapping.Livox
set_option autoImplicit false

open RingBuffer

structure PointXyzlt where
  x : Float32
  y : Float32
  z : Float32
  intensity : Float32
  tag : UInt8
  line : UInt8
  offsetTime : UInt64

instance : Inhabited PointXyzlt := ⟨⟨0, 0, 0, 0, 0, 0, 0⟩⟩

/-- `points_num` and `points` are one list. -/
structure PointPacket where
  handle : UInt32
  lidarType : UInt8
  points : List PointXyzlt

structure StoragePacket where
  baseTime : UInt64
  pointsNum : ℕ
  points : List PointXyzlt

def PointPacket.stored (data : PointPacket) (baseTime : UInt64) : StoragePacket :=
  ⟨baseTime, data.points.length, data.points⟩

/-- What `QueuePushAny` leaves in a slot. -/
def StoragePacket.Whole (packet : StoragePacket) : Prop := packet.pointsNum = packet.points.length

instance : Inhabited StoragePacket := ⟨⟨0, 0, []⟩⟩

structure LidarDataQueue where
  storagePacket : Option (List StoragePacket)
  rdIdx : BitVec 32
  wrIdx : BitVec 32
  mask : BitVec 32
  size : BitVec 32

def isPowerOf2 (size : BitVec 32) : Bool := size != 0 && (size &&& (size - 1)) == 0

def roundupPowerOf2 (size : BitVec 32) : BitVec 32 :=
  let powers := (List.range 32).map fun i => BitVec.ofNat 32 (2 ^ i)
  (powers.find? fun power => size ≤ power).getD (BitVec.ofNat 32 (2 ^ 31))

namespace LidarDataQueue

def initQueue (queueSize : BitVec 32) : LidarDataQueue :=
  let size := if isPowerOf2 queueSize then queueSize else roundupPowerOf2 queueSize
  ⟨some (List.replicate size.toNat default), 0, 0, size - 1, size⟩

/-- What `ResetLidar` leaves before the first packet. -/
def unallocated : LidarDataQueue := ⟨none, 0, 0, 0, 0⟩

variable (queue : LidarDataQueue)

/-- The fields that are read together as a ring; before the allocation there is no slot. -/
def ring : Ring 32 StoragePacket := ⟨queue.storagePacket.getD [], queue.rdIdx, queue.wrIdx, queue.mask⟩

def queueUsedSize : BitVec 32 := queue.wrIdx - queue.rdIdx
def queueIsFull : Bool := queue.ring.full
def queueIsEmpty : Bool := queue.ring.empty

def setSlot (f : StoragePacket → StoragePacket) : LidarDataQueue :=
  { queue with storagePacket := queue.storagePacket.map fun slots => slots.modify (queue.ring.slot queue.wrIdx) f }

def setBaseTime (baseTime : UInt64) : LidarDataQueue := queue.setSlot fun packet => { packet with baseTime := baseTime }

def setPointsNum (data : PointPacket) : LidarDataQueue :=
  queue.setSlot fun packet => { packet with pointsNum := data.points.length }

def clearPoints : LidarDataQueue := queue.setSlot fun packet => { packet with points := [] }

def resizePoints (data : PointPacket) : LidarDataQueue :=
  queue.setSlot fun packet => { packet with points := List.replicate data.points.length default }

def copyPoints (data : PointPacket) : LidarDataQueue := queue.setSlot fun packet => { packet with points := data.points }

def queuePushUpdate : LidarDataQueue := { queue with wrIdx := queue.wrIdx + 1 }

def queuePushAny (data : PointPacket) (baseTime : UInt64) : LidarDataQueue :=
  (((((queue.setBaseTime baseTime).setPointsNum data).clearPoints).resizePoints data).copyPoints data).queuePushUpdate

def frontSlot : Option StoragePacket := queue.ring.front?

def queuePopUpdate : LidarDataQueue := { queue with rdIdx := queue.rdIdx + 1 }

/-- A packet is copied out of the slot at `rd_idx`; a slot that is not there is an invalid read. -/
def queuePrePop : Option StoragePacket :=
  if queue.queueIsEmpty then none
  else queue.frontSlot.map fun packet => { packet with points := packet.points.take packet.pointsNum }

def queuePop : Option (StoragePacket × LidarDataQueue) := queue.queuePrePop.map fun packet => (packet, queue.queuePopUpdate)

/-- The packets in the queue, the oldest first. -/
def contents : List StoragePacket := queue.ring.contents

structure Ok : Prop where
  ring : queue.storagePacket.isSome → queue.ring.Holds queue.contents
  unallocated : queue.storagePacket = none → queue.rdIdx = queue.wrIdx

end LidarDataQueue

section PowersOfTwo

theorem toNat_two_pow {k : ℕ} (hk : k < 32) : (BitVec.ofNat 32 (2 ^ k)).toNat = 2 ^ k := by
  rw [BitVec.toNat_ofNat]
  exact Nat.mod_eq_of_lt (Nat.pow_lt_pow_right (by omega) hk)

theorem toNat_sub_one {size : BitVec 32} (h : size ≠ 0) : (size - 1).toNat = size.toNat - 1 := by
  have hPos : size.toNat ≠ 0 := fun hZero => h (BitVec.eq_of_toNat_eq hZero)
  rw [BitVec.toNat_sub_of_le]
  · rfl
  · rw [BitVec.le_def]
    exact Nat.one_le_iff_ne_zero.mpr hPos

theorem isPowerOf2_iff (size : BitVec 32) : isPowerOf2 size = true ↔ ∃ k < 32, size = BitVec.ofNat 32 (2 ^ k) := by
  rw [isPowerOf2, Bool.and_eq_true, bne_iff_ne, beq_iff_eq]
  constructor
  · rintro ⟨hNe, hAnd⟩
    have hPos : size.toNat ≠ 0 := fun hZero => hNe (BitVec.eq_of_toNat_eq hZero)
    have hZero := congrArg BitVec.toNat hAnd
    rw [BitVec.toNat_and, toNat_sub_one hNe] at hZero
    obtain ⟨k, hk⟩ := (Nat.and_sub_one_eq_zero_iff_isPowerOfTwo hPos).mp hZero
    have hLt : 2 ^ k < 2 ^ 32 := hk ▸ size.isLt
    refine ⟨k, (Nat.pow_lt_pow_iff_right (by omega)).mp hLt, ?_⟩
    rw [← hk, BitVec.ofNat_toNat, BitVec.setWidth_eq]
  · rintro ⟨k, hk, rfl⟩
    have hPos : (BitVec.ofNat 32 (2 ^ k)).toNat ≠ 0 := by
      rw [toNat_two_pow hk]
      exact (Nat.two_pow_pos k).ne'
    have hNe : BitVec.ofNat 32 (2 ^ k) ≠ 0 := fun hZero => hPos (by rw [hZero]; rfl)
    refine ⟨hNe, BitVec.eq_of_toNat_eq ?_⟩
    rw [BitVec.toNat_and, toNat_sub_one hNe]
    exact (Nat.and_sub_one_eq_zero_iff_isPowerOfTwo hPos).mpr ⟨k, toNat_two_pow hk⟩

/-- The loop stops at the first power of two that is not below the size, if there is one. -/
theorem roundupPowerOf2_cases (size : BitVec 32) :
    (∃ k < 32, roundupPowerOf2 size = BitVec.ofNat 32 (2 ^ k) ∧ size.toNat ≤ 2 ^ k ∧ ∀ j < k, 2 ^ j < size.toNat) ∨
      2 ^ 31 < size.toNat ∧ roundupPowerOf2 size = BitVec.ofNat 32 (2 ^ 31) := by
  rw [roundupPowerOf2]
  simp only [List.find?_map]
  cases hFind : (List.range 32).find? ((fun power => decide (size ≤ power)) ∘ fun i => BitVec.ofNat 32 (2 ^ i)) with
  | none =>
    right
    have hLast := List.find?_eq_none.mp hFind 31 (by simp)
    simp only [Function.comp_apply, decide_eq_true_eq, BitVec.le_def, toNat_two_pow (show 31 < 32 by omega)] at hLast
    exact ⟨not_le.mp hLast, rfl⟩
  | some k =>
    left
    obtain ⟨hk, hMem, hBefore⟩ := List.find?_range_eq_some.mp hFind
    have hLt : k < 32 := List.mem_range.mp hMem
    simp only [Function.comp_apply, decide_eq_true_eq, BitVec.le_def, toNat_two_pow hLt] at hk
    refine ⟨k, hLt, rfl, hk, fun j hj => ?_⟩
    have hNot := hBefore j hj
    simp only [Function.comp_apply, Bool.not_eq_true', decide_eq_false_iff_not, BitVec.le_def,
      toNat_two_pow (hj.trans hLt)] at hNot
    exact not_le.mp hNot

/-- The queue gets the least power of two of slots in which the wanted size fits, up to `2 ^ 31`. -/
theorem initQueue_power (queueSize : BitVec 32) :
    ∃ k < 32, (LidarDataQueue.initQueue queueSize).size = BitVec.ofNat 32 (2 ^ k) ∧
      min queueSize.toNat (2 ^ 31) ≤ 2 ^ k ∧ ∀ j < k, 2 ^ j < queueSize.toNat := by
  by_cases hPower : isPowerOf2 queueSize
  · obtain ⟨k, hk, rfl⟩ := (isPowerOf2_iff queueSize).mp hPower
    refine ⟨k, hk, by simp only [LidarDataQueue.initQueue, hPower, if_true], ?_, fun j hj => ?_⟩
    · rw [toNat_two_pow hk]
      exact min_le_left _ _
    · rw [toNat_two_pow hk]
      exact Nat.pow_lt_pow_right (by omega) hj
  · have hSize : (LidarDataQueue.initQueue queueSize).size = roundupPowerOf2 queueSize := by
      simp only [LidarDataQueue.initQueue, hPower, Bool.false_eq_true, if_false]
    rcases roundupPowerOf2_cases queueSize with ⟨k, hk, hRound, hLe, hLeast⟩ | ⟨hLarge, hRound⟩
    · exact ⟨k, hk, by rw [hSize, hRound], (min_le_left _ _).trans hLe, hLeast⟩
    · refine ⟨31, by omega, by rw [hSize, hRound], min_le_right _ _, fun j hj => ?_⟩
      exact (Nat.pow_lt_pow_right (by omega) hj).trans hLarge

end PowersOfTwo

namespace LidarDataQueue

variable {queue : LidarDataQueue}

theorem ok_unallocated : unallocated.Ok where
  ring h := by cases h
  unallocated _ := rfl

theorem holds_initQueue (queueSize : BitVec 32) : (initQueue queueSize).ring.Holds [] := by
  obtain ⟨k, hk, hSize, -, -⟩ := initQueue_power queueSize
  have hMask : (initQueue queueSize).mask = BitVec.ofNat 32 (2 ^ k - 1) := by
    refine BitVec.eq_of_toNat_eq ?_
    have hNe : BitVec.ofNat 32 (2 ^ k) ≠ 0 := fun hZero =>
      (Nat.two_pow_pos k).ne' ((toNat_two_pow hk).symm.trans (congrArg BitVec.toNat hZero))
    rw [show (initQueue queueSize).mask = (initQueue queueSize).size - 1 from rfl, hSize, toNat_sub_one hNe,
      toNat_two_pow hk, mask_toNat hk]
  have hSlots : (List.replicate (initQueue queueSize).size.toNat (default : StoragePacket)).length = 2 ^ k := by
    rw [List.length_replicate, hSize, toNat_two_pow hk]
  have hRing : (initQueue queueSize).ring =
      ⟨List.replicate (initQueue queueSize).size.toNat default, 0, 0, BitVec.ofNat 32 (2 ^ k - 1)⟩ := by
    rw [← hMask]
    rfl
  rw [hRing]
  exact holds_nil hk hSlots 0

theorem contents_initQueue (queueSize : BitVec 32) : (initQueue queueSize).contents = [] :=
  (holds_initQueue queueSize).contents_eq

theorem ok_initQueue (queueSize : BitVec 32) : (initQueue queueSize).Ok where
  ring _ := by
    rw [contents_initQueue]
    exact holds_initQueue queueSize
  unallocated h := by cases h

theorem Ok.contents_of_none (h : queue.Ok) (hNone : queue.storagePacket = none) : queue.contents = [] := by
  rw [contents, Ring.contents]
  have hUsed : queue.ring.used = 0 := by
    rw [Ring.used, show queue.ring.wr = queue.wrIdx from rfl, ← h.unallocated hNone]
    exact BitVec.sub_self _
  rw [hUsed]
  rfl

theorem contents_unallocated : unallocated.contents = [] := ok_unallocated.contents_of_none rfl

theorem Ok.empty_iff (h : queue.Ok) : queue.queueIsEmpty = true ↔ queue.contents = [] := by
  cases hStorage : queue.storagePacket with
  | some slots => exact (h.ring (by rw [hStorage]; rfl)).empty_iff
  | none =>
    refine ⟨fun _ => h.contents_of_none hStorage, fun _ => ?_⟩
    exact beq_iff_eq.mpr (h.unallocated hStorage)

/-- The packet that is being written. -/
def backSlot (queue : LidarDataQueue) : Option StoragePacket := queue.ring.slots[queue.ring.slot queue.wrIdx]?

/-- There is a slot for one more packet. -/
structure Room (queue : LidarDataQueue) : Prop where
  allocated : queue.storagePacket.isSome
  free : queue.contents.length < queue.ring.slots.length

theorem ring_setSlot (queue : LidarDataQueue) (f : StoragePacket → StoragePacket) :
    (queue.setSlot f).ring = queue.ring.fill f := by
  cases hStorage : queue.storagePacket <;> simp [setSlot, ring, Ring.fill, hStorage]

theorem allocated_setSlot (queue : LidarDataQueue) (f : StoragePacket → StoragePacket) :
    (queue.setSlot f).storagePacket.isSome = queue.storagePacket.isSome := Option.isSome_map

@[simp] theorem length_slots_setSlot (queue : LidarDataQueue) (f : StoragePacket → StoragePacket) :
    (queue.setSlot f).ring.slots.length = queue.ring.slots.length := by
  rw [ring_setSlot]
  exact List.length_modify ..

theorem Ok.room_of_not_full (h : queue.Ok) (hSome : queue.storagePacket.isSome) (hFull : queue.queueIsFull = false) :
    queue.Room := ⟨hSome, (h.ring hSome).not_full hFull⟩

section Moves

variable (h : queue.Ok)
include h

theorem Ok.contents_setSlot (hRoom : queue.Room) (f : StoragePacket → StoragePacket) :
    (queue.setSlot f).contents = queue.contents := by
  rw [contents, ring_setSlot]
  exact ((h.ring hRoom.allocated).fill hRoom.free f).contents_eq

theorem Ok.setSlot (hRoom : queue.Room) (f : StoragePacket → StoragePacket) : (queue.setSlot f).Ok where
  ring _ := by
    rw [h.contents_setSlot hRoom, ring_setSlot]
    exact (h.ring hRoom.allocated).fill hRoom.free f
  unallocated hNone := by
    have hSome := allocated_setSlot queue f
    rw [hNone, hRoom.allocated] at hSome
    cases hSome

theorem Ok.room_setSlot (hRoom : queue.Room) (f : StoragePacket → StoragePacket) : (queue.setSlot f).Room where
  allocated := by rw [allocated_setSlot]; exact hRoom.allocated
  free := by
    rw [h.contents_setSlot hRoom, length_slots_setSlot]
    exact hRoom.free

theorem Ok.holds_push (hRoom : queue.Room) {packet : StoragePacket} (hBack : queue.backSlot = some packet) :
    queue.queuePushUpdate.ring.Holds (queue.contents ++ [packet]) :=
  (h.ring hRoom.allocated).bump hRoom.free hBack

theorem Ok.contents_push (hRoom : queue.Room) {packet : StoragePacket} (hBack : queue.backSlot = some packet) :
    queue.queuePushUpdate.contents = queue.contents ++ [packet] := (h.holds_push hRoom hBack).contents_eq

theorem Ok.push (hRoom : queue.Room) {packet : StoragePacket} (hBack : queue.backSlot = some packet) :
    queue.queuePushUpdate.Ok where
  ring _ := by
    rw [h.contents_push hRoom hBack]
    exact h.holds_push hRoom hBack
  unallocated hNone := by
    have hSome := hRoom.allocated
    rw [show queue.storagePacket = none from hNone] at hSome
    cases hSome

variable {packet : StoragePacket} {rest : List StoragePacket}

theorem Ok.holds_cons (hContents : queue.contents = packet :: rest) : queue.ring.Holds (packet :: rest) := by
  cases hStorage : queue.storagePacket with
  | some slots => exact hContents ▸ h.ring (by rw [hStorage]; rfl)
  | none =>
    rw [h.contents_of_none hStorage] at hContents
    cases hContents

theorem Ok.frontSlot_eq (hContents : queue.contents = packet :: rest) : queue.frontSlot = some packet :=
  (h.holds_cons hContents).front?_eq

theorem Ok.contents_pop (hContents : queue.contents = packet :: rest) : queue.queuePopUpdate.contents = rest :=
  (h.holds_cons hContents).drop.contents_eq

theorem Ok.pop (hContents : queue.contents = packet :: rest) : queue.queuePopUpdate.Ok where
  ring _ := by
    rw [h.contents_pop hContents]
    exact (h.holds_cons hContents).drop
  unallocated hNone := by
    rw [h.contents_of_none hNone] at hContents
    cases hContents

theorem Ok.room_pop (hContents : queue.contents = packet :: rest) (hRoom : queue.Room) : queue.queuePopUpdate.Room where
  allocated := hRoom.allocated
  free := by
    have hFree := hRoom.free
    rw [hContents, List.length_cons] at hFree
    rw [h.contents_pop hContents]
    exact Nat.lt_of_succ_lt hFree

end Moves

theorem backSlot_setSlot (queue : LidarDataQueue) (f : StoragePacket → StoragePacket) :
    (queue.setSlot f).backSlot = queue.backSlot.map f := by
  rw [backSlot, ring_setSlot]
  exact List.getElem?_modify_eq _ _ _

theorem backSlot_setSlot_of_some {packet : StoragePacket} (h : queue.backSlot = some packet)
    (f : StoragePacket → StoragePacket) : (queue.setSlot f).backSlot = some (f packet) := by
  rw [backSlot_setSlot, h]
  rfl

theorem Ok.backSlot_isSome (h : queue.Ok) (hRoom : queue.Room) : queue.backSlot.isSome := by
  have hLt := (h.ring hRoom.allocated).slot_lt queue.wrIdx
  exact Option.isSome_iff_exists.mpr ⟨_, List.getElem?_eq_getElem hLt⟩

theorem Ok.queuePushAny (h : queue.Ok) (hRoom : queue.Room) (data : PointPacket) (baseTime : UInt64) :
    (queue.queuePushAny data baseTime).Ok ∧
      (queue.queuePushAny data baseTime).contents = queue.contents ++ [data.stored baseTime] := by
  have hSet (f : StoragePacket → StoragePacket) {q : LidarDataQueue} (hq : q.Ok ∧ q.Room ∧ q.contents = queue.contents) :
      (q.setSlot f).Ok ∧ (q.setSlot f).Room ∧ (q.setSlot f).contents = queue.contents :=
    ⟨hq.1.setSlot hq.2.1 f, hq.1.room_setSlot hq.2.1 f, (hq.1.contents_setSlot hq.2.1 f).trans hq.2.2⟩
  obtain ⟨hOk, hRoom', hContents⟩ := hSet (fun packet => { packet with points := data.points }) <|
    hSet (fun packet => { packet with points := List.replicate data.points.length default }) <|
    hSet (fun packet => { packet with points := [] }) <|
    hSet (fun packet => { packet with pointsNum := data.points.length }) <|
    hSet (fun packet => { packet with baseTime := baseTime }) ⟨h, hRoom, rfl⟩
  obtain ⟨packet, hBack⟩ := Option.isSome_iff_exists.mp (h.backSlot_isSome hRoom)
  have hStored : ((((((queue.setBaseTime baseTime).setPointsNum data).clearPoints).resizePoints data).copyPoints
      data)).backSlot = some (data.stored baseTime) := by
    simp only [copyPoints, resizePoints, clearPoints, setPointsNum, setBaseTime, backSlot_setSlot, hBack, Option.map_some]
    rfl
  exact ⟨hOk.push hRoom' hStored, (hOk.contents_push hRoom' hStored).trans (by rw [hContents])⟩

theorem Ok.queuePop_nil (h : queue.Ok) (hContents : queue.contents = []) : queue.queuePop = none := by
  rw [queuePop, queuePrePop, if_pos (h.empty_iff.mpr hContents)]
  rfl

theorem Ok.queuePop_cons (h : queue.Ok) {packet : StoragePacket} {rest : List StoragePacket}
    (hContents : queue.contents = packet :: rest) (hWhole : packet.Whole) :
    queue.queuePop = some (packet, queue.queuePopUpdate) := by
  have hEmpty : queue.queueIsEmpty = false := by
    rw [Bool.eq_false_iff, Ne, h.empty_iff, hContents]
    exact List.cons_ne_nil _ _
  have hTake : packet.points.take packet.pointsNum = packet.points := List.take_of_length_le hWhole.ge
  rw [queuePop, queuePrePop, hEmpty, h.frontSlot_eq hContents]
  simp only [Bool.false_eq_true, if_false, Option.map_some, hTake]

end LidarDataQueue

inductive Access where
  | push (data : PointPacket) (baseTime : UInt64)
  | pop

/-- `PushLidarData` on an allocated queue, and `QueuePop`. -/
def LidarDataQueue.access (queue : LidarDataQueue) : Access → Option StoragePacket × LidarDataQueue
  | .push data baseTime => (none, if queue.queueIsFull then queue else queue.queuePushAny data baseTime)
  | .pop =>
    match queue.queuePop with
    | some (packet, next) => (some packet, next)
    | none => (none, queue)

def fifoAccess (queue : Fifo StoragePacket) : Access → Option StoragePacket × Fifo StoragePacket
  | .push data baseTime => (none, queue.offer (data.stored baseTime))
  | .pop => queue.take

def outputs {σ : Type} (step : σ → Access → Option StoragePacket × σ) : List Access → σ → List (Option StoragePacket)
  | [], _ => []
  | access :: rest, state => (step state access).1 :: outputs step rest (step state access).2

structure Refines (queue : LidarDataQueue) (fifo : Fifo StoragePacket) : Prop where
  ok : queue.Ok
  allocated : queue.storagePacket.isSome
  contents : queue.contents = fifo.content
  capacity : queue.ring.slots.length = fifo.capacity
  whole : ∀ packet ∈ fifo.content, packet.Whole

namespace Refines

variable {queue : LidarDataQueue} {fifo : Fifo StoragePacket}

theorem initQueue (queueSize : BitVec 32) :
    Refines (.initQueue queueSize) (.ofCapacity (LidarDataQueue.initQueue queueSize).size.toNat) where
  ok := LidarDataQueue.ok_initQueue queueSize
  allocated := rfl
  contents := LidarDataQueue.contents_initQueue queueSize
  capacity := List.length_replicate
  whole _ h := by cases h

theorem push (h : Refines queue fifo) (data : PointPacket) (baseTime : UInt64) :
    Refines (queue.access (.push data baseTime)).2 (fifoAccess fifo (.push data baseTime)).2 := by
  have hFullIff := (h.ok.ring h.allocated).full_iff
  rw [h.contents, h.capacity] at hFullIff
  by_cases hFull : queue.queueIsFull
  · simp only [LidarDataQueue.access, fifoAccess, hFull, if_true, Fifo.offer_of_full (hFullIff.mp hFull)]
    exact h
  · simp only [LidarDataQueue.access, fifoAccess, hFull, Bool.false_eq_true, if_false]
    have hRoom := h.ok.room_of_not_full h.allocated (Bool.eq_false_iff.mpr hFull)
    have hFree : fifo.content.length < fifo.capacity := by
      rw [← h.contents, ← h.capacity]
      exact hRoom.free
    obtain ⟨hOk, hContents⟩ := h.ok.queuePushAny hRoom data baseTime
    refine ⟨hOk, ?_, ?_, ?_, ?_⟩
    · simp only [LidarDataQueue.queuePushAny, LidarDataQueue.queuePushUpdate, LidarDataQueue.copyPoints,
        LidarDataQueue.resizePoints, LidarDataQueue.clearPoints, LidarDataQueue.setPointsNum, LidarDataQueue.setBaseTime,
        LidarDataQueue.allocated_setSlot]
      exact h.allocated
    · rw [hContents, h.contents, Fifo.content_offer_of_lt hFree]
    · rw [Fifo.capacity_offer, ← h.capacity]
      show ((((((queue.setBaseTime baseTime).setPointsNum data).clearPoints).resizePoints data).copyPoints
        data)).ring.slots.length = _
      simp only [LidarDataQueue.copyPoints, LidarDataQueue.resizePoints, LidarDataQueue.clearPoints,
        LidarDataQueue.setPointsNum, LidarDataQueue.setBaseTime, LidarDataQueue.length_slots_setSlot]
    · intro packet hMem
      rw [Fifo.content_offer_of_lt hFree] at hMem
      rcases List.mem_append.mp hMem with hOld | hNew
      · exact h.whole packet hOld
      · rw [List.mem_singleton.mp hNew]
        rfl

theorem pop (h : Refines queue fifo) :
    (queue.access .pop).1 = (fifoAccess fifo .pop).1 ∧ Refines (queue.access .pop).2 (fifoAccess fifo .pop).2 := by
  cases hContent : fifo.content with
  | nil =>
    have hPop := h.ok.queuePop_nil (h.contents.trans hContent)
    simp only [LidarDataQueue.access, fifoAccess, Fifo.take, hPop, hContent]
    exact ⟨rfl, h.ok, h.allocated, h.contents.trans hContent, h.capacity, fun _ hMem => by cases hMem⟩
  | cons packet rest =>
    have hContents := h.contents.trans hContent
    have hWhole (other : StoragePacket) (hMem : other ∈ packet :: rest) : other.Whole := h.whole other (hContent ▸ hMem)
    have hPop := h.ok.queuePop_cons hContents (hWhole packet List.mem_cons_self)
    simp only [LidarDataQueue.access, fifoAccess, Fifo.take, hPop, hContent]
    exact ⟨rfl, h.ok.pop hContents, h.allocated, h.ok.contents_pop hContents, h.capacity,
      fun other hMem => hWhole other (List.mem_cons_of_mem _ hMem)⟩

theorem outputs_eq (h : Refines queue fifo) (accesses : List Access) :
    outputs LidarDataQueue.access accesses queue = outputs fifoAccess accesses fifo := by
  induction accesses generalizing queue fifo with
  | nil => rfl
  | cons access rest ih =>
    cases access with
    | push data baseTime => exact congrArg _ (ih (h.push data baseTime))
    | pop =>
      obtain ⟨hOutput, hNext⟩ := h.pop
      exact congrArg₂ _ hOutput (ih hNext)

end Refines

/-- However often the counters wrap, the queue is a bounded queue with the capacity that `InitQueue` rounded up. -/
theorem queue_is_fifo (queueSize : BitVec 32) (accesses : List Access) :
    ∃ k < 32, min queueSize.toNat (2 ^ 31) ≤ 2 ^ k ∧ (∀ j < k, 2 ^ j < queueSize.toNat) ∧
      outputs LidarDataQueue.access accesses (.initQueue queueSize) = outputs fifoAccess accesses (.ofCapacity (2 ^ k)) := by
  obtain ⟨k, hk, hSize, hFits, hLeast⟩ := initQueue_power queueSize
  have hRefines := Refines.initQueue queueSize
  rw [hSize, toNat_two_pow hk] at hRefines
  exact ⟨k, hk, hFits, hLeast, hRefines.outputs_eq accesses⟩

end RoveMapping.Livox
