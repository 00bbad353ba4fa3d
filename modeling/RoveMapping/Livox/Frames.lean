import RoveMapping.Livox.PubHandler
import RoveMapping.Library.Machine

/-! # The frames

The frames that `RawDataProcess` cuts while packets arrive. With synchronised lidars the time stamps of the points
decide when one is due, else the clock does, and then every lidar gives what it has. The last packet of any kind says
whether they are synchronised.
-/
namespace RoveMapping.Livox
open Resumption PubHandler
set_option autoImplicit false

/-- A frame with points, with the clock when it was cut. -/
structure Cut where
  sync : Bool
  now : ℤ
  frame : Frame

/-- `start` is the clock when it was read first. -/
structure Framing where
  handler : PubHandler
  start : Option ℤ
  cuts : List Cut

inductive FramingLabel where
  | receive (handle : UInt32) (packet : EthernetPacket) (now : UInt64)
  | imu (timeType : UInt8)
  | process (now : ℤ)

namespace Framing

def initial (config : PointCloudConfig) (lidarExtrinsics : UInt32 → Option ExtParameter) : Framing :=
  ⟨.initial config lidarExtrinsics, none, []⟩

variable (s : Framing)

/-- One packet of `RawDataProcess`, with the frame that the callback is given, if it has points. -/
def process (now : ℤ) : Option Framing := do
  let (handler, frame) ← s.handler.rawDataProcess now
  some
    { handler := handler
      start := if s.handler.isTimestampSync then s.start else s.start.or (some now)
      cuts := if frame.isEmpty then s.cuts else s.cuts ++ [⟨s.handler.isTimestampSync, now, frame⟩] }

def next : FramingLabel → Option Framing
  | .receive handle packet now => (s.handler.onPointCloud handle packet now).map fun handler => { s with handler := handler }
  | .imu timeType => some { s with handler := s.handler.onImu timeType }
  | .process now => s.process now

abbrev Run : Framing → Framing → Prop := Reaches next fun _ _ => True

/-- When the frames without synchronisation were cut. -/
def clocked : List ℤ := (s.cuts.filter fun cut => !cut.sync).map Cut.now

end Framing

/-- With synchronisation, an entry ends at a whole number of intervals, in milliseconds. If its last point is not before
its first, it is no shorter than one interval less its tolerance; times that step back are taken for a long entry. -/
def Aligned (config : PointCloudConfig) (entry : PointPacket × UInt64) : Prop :=
  ∃ last, entry.1.points.getLast? = some last ∧ last.offsetTime / kRatioOfMsToNs % config.publishIntervalMs = 0 ∧
    (entry.2 ≤ last.offsetTime → entry.2.toNat + config.publishIntervalTolerance.toNat ≤ last.offsetTime.toNat)

namespace PubHandler

variable {s s' : PubHandler} {frame : Frame} {id : UInt32} {now : ℤ}

theorem fillFrame_nil (h : fillFrame (s, []) id = some (s', frame)) {entry : PointPacket × UInt64} (hEntry : entry ∈ frame) :
    entry = (⟨id, kLivoxLidarType, s.pending id⟩, (s.handlers id).getLidarBaseTime) ∧ s.pending id ≠ [] := by
  rw [fillFrame] at h
  split at h
  · cases h
    by_cases hEmpty : (s.handlers id).pointsClouds.isEmpty
    · rw [if_pos hEmpty] at hEntry
      cases hEntry
    · rw [if_neg hEmpty] at hEntry
      refine ⟨List.mem_singleton.mp hEntry, fun hNil => hEmpty ?_⟩
      rw [show (s.handlers id).pointsClouds = [] from hNil]
      rfl
  · cases h

theorem aligned_checkTimer (hSync : s.isTimestampSync = true) (h : s.checkTimer id now = some (s', frame)) :
    ∀ entry ∈ frame, Aligned s.config entry := by
  intro entry hEntry
  rw [checkTimer, if_pos hSync] at h
  simp only at h
  split at h
  · cases h
    cases hEntry
  · rename_i hDue
    split at h
    · cases h
      cases hEntry
    · rename_i hLong
      obtain ⟨rfl, hSome⟩ := fillFrame_nil h hEntry
      obtain ⟨hMultiple, -⟩ := not_or.mp hDue
      have hRecent : (s.handlers id).getRecentTimeStamp = ((s.pending id).getLast hSome).offsetTime := by
        rw [LidarPubHandler.getRecentTimeStamp, show (s.handlers id).pointsClouds = s.pending id from rfl,
          List.getLast?_eq_some_getLast hSome]
        rfl
      rw [hRecent] at hMultiple hLong
      refine ⟨_, List.getLast?_eq_some_getLast hSome, not_not.mp hMultiple, fun hForward => ?_⟩
      have hSpan := UInt64.le_iff_toNat_le.mp (UInt64.not_lt.mp hLong)
      have hOrder := UInt64.le_iff_toNat_le.mp hForward
      rw [UInt64.toNat_sub_of_le _ _ hForward] at hSpan
      omega

/-- Without synchronisation a frame is due one interval after the last. -/
theorem lastPubTime_checkTimer (hSync : s.isTimestampSync = false) (h : s.checkTimer id now = some (s', frame)) :
    (∃ last, s.lastPubTime = some last ∧ last + s.config.publishInterval.toNat ≤ now ∧
      s'.lastPubTime = some (last + s.config.publishInterval.toNat)) ∨
    frame = [] ∧ s'.lastPubTime = s.lastPubTime.or (some now) := by
  rw [checkTimer, if_neg (by rw [hSync]; decide)] at h
  split at h
  · rename_i hNone
    cases h
    exact .inr ⟨rfl, by rw [hNone]; rfl⟩
  · rename_i last hLast
    split at h
    · cases h
      exact .inr ⟨rfl, by rw [hLast]; rfl⟩
    · rename_i hDue
      obtain ⟨handlers, rfl⟩ := foldlM_fillFrame_eq h
      exact .inl ⟨last, hLast, by omega, rfl⟩

theorem lastPubTime_sync (hSync : s.isTimestampSync = true) (h : s.checkTimer id now = some (s', frame)) :
    s'.lastPubTime = s.lastPubTime := by
  rw [checkTimer, if_pos hSync] at h
  simp only at h
  split at h
  · cases h
    rfl
  · split at h
    · cases h
      rfl
    · have hOne : [id].foldlM fillFrame (s, []) = some (s', frame) := by rw [List.foldlM_cons, h]; rfl
      obtain ⟨handlers, rfl⟩ := foldlM_fillFrame_eq hOne
      rfl

theorem pending_fillFrame {frame' : Frame} (h : fillFrame (s, frame) id = some (s', frame')) (id' : UInt32) :
    s'.pending id' = if id' = id then [] else s.pending id' := by
  rw [fillFrame] at h
  split at h
  · cases h
    exact pending_setHandler ..
  · cases h

/-- The lidars of which a frame takes the points have none left. -/
theorem pending_foldlM {handles : List UInt32} {state : PubHandler × Frame}
    (h : handles.foldlM fillFrame state = some (s', frame)) (id : UInt32) :
    s'.pending id = if id ∈ handles then [] else state.1.pending id := by
  induction handles generalizing state with
  | nil =>
    cases h
    rfl
  | cons id' rest ih =>
    rw [List.foldlM_cons] at h
    obtain ⟨next, hFill, hRest⟩ := Option.bind_eq_some_iff.mp h
    rw [ih hRest, pending_fillFrame hFill]
    by_cases hHere : id = id' <;> by_cases hLater : id ∈ rest <;> simp [hHere, hLater]

/-- Only lidars of which a packet has been processed have points. -/
def Known (s : PubHandler) : Prop := ∀ id, s.pending id ≠ [] → id ∈ s.handles

theorem Known.collect (h : s.Known) (packet : RawPacket) (rest : List RawPacket) : (s.collect packet rest).Known := by
  intro id hSome
  rw [pending_collect] at hSome
  show id ∈ if packet.handle ∈ s.handles then s.handles else s.handles.orderedInsert (· ≤ ·) packet.handle
  have hMem : id = packet.handle ∨ id ∈ s.handles := by
    by_cases hId : id = packet.handle
    · exact .inl hId
    · rw [if_neg hId, List.append_nil] at hSome
      exact .inr (h id hSome)
  split
  · rename_i hOld
    rcases hMem with rfl | hMem
    · exact hOld
    · exact hMem
  · rw [List.mem_orderedInsert]
    exact hMem

theorem Known.checkTimer (h : s.Known) (hTimer : s.checkTimer id now = some (s', frame)) : s'.Known := by
  intro id' hSome
  have hConserves := checkTimer_conserves hTimer id'
  obtain ⟨handlers, lastPubTime, rfl⟩ := checkTimer_eq hTimer
  refine h id' fun hNil => hSome ?_
  rw [hNil] at hConserves
  exact (List.append_eq_nil_iff.mp hConserves).2

/-- Without synchronisation a frame takes the points of all lidars. -/
theorem pending_checkTimer (h : s.Known) (hSync : s.isTimestampSync = false) (hTimer : s.checkTimer id now = some (s', frame))
    (hFrame : frame ≠ []) (id' : UInt32) : s'.pending id' = [] := by
  rw [PubHandler.checkTimer, if_neg (by rw [hSync]; decide)] at hTimer
  split at hTimer
  · cases hTimer
    exact absurd rfl hFrame
  · split at hTimer
    · cases hTimer
      exact absurd rfl hFrame
    · rw [pending_foldlM hTimer]
      split
      · rfl
      · rename_i hUnknown
        exact not_not.mp fun hSome => hUnknown (h id' hSome)

end PubHandler

/-- Times that are one interval or more apart from one another and from the start, on average. -/
structure Paced (interval : ℕ) (start last : ℤ) (times : List ℤ) : Prop where
  bound : start + times.length * interval ≤ last
  times : ∀ (j : ℕ) (time : ℤ), times[j]? = some time → start + (j + 1) * interval ≤ time

namespace Paced

variable {interval : ℕ} {start last now : ℤ} {times : List ℤ}

theorem nil (interval : ℕ) (start : ℤ) : Paced interval start start [] where
  bound := by simp
  times j time h := by simp at h

theorem skip (h : Paced interval start last times) : Paced interval start (last + interval) times where
  bound := by
    have hBound := h.bound
    omega
  times := h.times

theorem push (h : Paced interval start last times) (hDue : last + interval ≤ now) :
    Paced interval start (last + interval) (times ++ [now]) where
  bound := by
    have hBound := h.bound
    rw [List.length_append, List.length_singleton]
    push_cast
    linarith
  times j time hTime := by
    rcases Nat.lt_trichotomy j times.length with hj | rfl | hj
    · rw [List.getElem?_append_left hj] at hTime
      exact h.times j time hTime
    · have hBound := h.bound
      rw [List.getElem?_concat_length, Option.some_inj] at hTime
      linarith
    · rw [List.getElem?_eq_none (by rw [List.length_append, List.length_singleton]; omega)] at hTime
      cases hTime

end Paced

namespace Framing

/-- Before the clock is read for the first time, or after. -/
def OnSchedule (interval : ℕ) (lastPubTime start : Option ℤ) (clocked : List ℤ) : Prop :=
  lastPubTime = none ∧ start = none ∧ clocked = [] ∨
    ∃ first last, lastPubTime = some last ∧ start = some first ∧ Paced interval first last clocked

structure Inv (s : Framing) (config : PointCloudConfig) : Prop where
  configured : s.handler.config = config
  handles : s.handler.handles.Nodup
  known : s.handler.Known
  frames : ∀ cut ∈ s.cuts, cut.frame ≠ [] ∧ FrameOk cut.frame ∧ (cut.sync = true → ∀ entry ∈ cut.frame, Aligned config entry)
  schedule : OnSchedule config.publishInterval.toNat s.handler.lastPubTime s.start s.clocked

theorem inv_initial (config : PointCloudConfig) (lidarExtrinsics : UInt32 → Option ExtParameter) :
    (initial config lidarExtrinsics).Inv config where
  configured := rfl
  handles := List.nodup_nil
  known _ h := absurd rfl h
  frames := nofun
  schedule := .inl ⟨rfl, rfl, rfl⟩

variable {s s' : Framing} {config : PointCloudConfig} {now : ℤ}

theorem Inv.receive (h : s.Inv config) {handle : UInt32} {packet : EthernetPacket} {now : UInt64} {handler : PubHandler}
    (hReceive : s.handler.onPointCloud handle packet now = some handler) : Inv { s with handler := handler } config := by
  rw [onPointCloud] at hReceive
  split at hReceive <;> cases hReceive
  exact ⟨h.configured, h.handles, h.known, h.frames, h.schedule⟩

theorem process_cases (h : s.process now = some s') : ∃ packet rest handler frame,
    (s.handler.collect packet rest).checkTimer packet.handle now = some (handler, frame) ∧
    s.handler.rawDataProcess now = some (handler, frame) ∧
    s' = { handler := handler
           start := if s.handler.isTimestampSync then s.start else s.start.or (some now)
           cuts := if frame.isEmpty then s.cuts else s.cuts ++ [⟨s.handler.isTimestampSync, now, frame⟩] } := by
  obtain ⟨⟨handler, frame⟩, hData, hNext⟩ := Option.bind_eq_some_iff.mp h
  cases hNext
  obtain ⟨packet, rest, -, hTimer⟩ := rawDataProcess_cases hData
  exact ⟨packet, rest, handler, frame, hTimer, hData, rfl⟩

/-- What a frame adds to the cuts. -/
theorem Inv.frames_append (h : s.Inv config) {sync : Bool} {frame : Frame} (hFrame : FrameOk frame)
    (hAligned : sync = true → ∀ entry ∈ frame, Aligned config entry) :
    ∀ cut ∈ if frame.isEmpty then s.cuts else s.cuts ++ [⟨sync, now, frame⟩], cut.frame ≠ [] ∧ FrameOk cut.frame ∧
      (cut.sync = true → ∀ entry ∈ cut.frame, Aligned config entry) := by
  intro cut hCut
  split at hCut
  · exact h.frames cut hCut
  · rename_i hSome
    rcases List.mem_append.mp hCut with hOld | hNew
    · exact h.frames cut hOld
    · rw [List.mem_singleton.mp hNew]
      exact ⟨fun hNil => hSome (List.isEmpty_iff.mpr hNil), hFrame, hAligned⟩

theorem clocked_append (cuts : List Cut) (sync : Bool) (now : ℤ) (frame : Frame) :
    ((if frame.isEmpty then cuts else cuts ++ [⟨sync, now, frame⟩]).filter fun cut => !cut.sync).map Cut.now =
      (cuts.filter fun cut => !cut.sync).map Cut.now ++ if frame.isEmpty || sync then [] else [now] := by
  cases frame.isEmpty <;> cases sync <;> simp

theorem Inv.process (h : s.Inv config) (hProcess : s.process now = some s') : s'.Inv config := by
  obtain ⟨packet, rest, handler, frame, hTimer, hData, rfl⟩ := process_cases hProcess
  obtain ⟨hFrame, hHandles⟩ := frameOk_rawDataProcess h.handles hData
  have hKnown := (h.known.collect packet rest).checkTimer hTimer
  have hConfig : handler.config = config := by
    obtain ⟨handlers, lastPubTime, rfl⟩ := checkTimer_eq hTimer
    exact h.configured
  cases hSync : s.handler.isTimestampSync with
  | true =>
    have hAligned := aligned_checkTimer (s := s.handler.collect packet rest) hSync hTimer
    have hLast := lastPubTime_sync (s := s.handler.collect packet rest) hSync hTimer
    refine ⟨hConfig, hHandles, hKnown, h.frames_append hFrame fun _ => h.configured ▸ hAligned, ?_⟩
    simp only [Framing.clocked, clocked_append, Bool.or_true, if_true, List.append_nil, hLast]
    exact h.schedule
  | false =>
    refine ⟨hConfig, hHandles, hKnown, h.frames_append hFrame nofun, ?_⟩
    simp only [Framing.clocked, clocked_append, Bool.or_false, Bool.false_eq_true, if_false]
    right
    rcases lastPubTime_checkTimer (s := s.handler.collect packet rest) hSync hTimer with ⟨last, hLast, hDue, hNext⟩ | ⟨rfl, hNext⟩
    · rcases h.schedule with ⟨hNone, -⟩ | ⟨start, last', hLast', hStart, hPaced⟩
      · rw [show s.handler.lastPubTime = some last from hLast] at hNone
        cases hNone
      · obtain rfl : last' = last := Option.some_inj.mp (hLast'.symm.trans hLast)
        have hInterval : (s.handler.collect packet rest).config = config := h.configured
        rw [hInterval] at hDue hNext
        refine ⟨start, _, hNext, by rw [hStart]; rfl, ?_⟩
        split
        · rw [List.append_nil]
          exact hPaced.skip
        · exact hPaced.push hDue
    · simp only [List.isEmpty_nil, if_true, List.append_nil]
      rcases h.schedule with ⟨hNone, hStart, hClocked⟩ | ⟨start, last, hLast, hStart, hPaced⟩
      · have hNil : (s.cuts.filter fun cut => !cut.sync).map Cut.now = [] := hClocked
        rw [hNil]
        refine ⟨now, now, ?_, by rw [hStart]; rfl, .nil _ now⟩
        rw [hNext, show (s.handler.collect packet rest).lastPubTime = none from hNone]
        rfl
      · refine ⟨start, last, ?_, by rw [hStart]; rfl, hPaced⟩
        rw [hNext, show (s.handler.collect packet rest).lastPubTime = some last from hLast]
        rfl

theorem Inv.next {l : FramingLabel} (h : s.Inv config) (hNext : s.next l = some s') : s'.Inv config := by
  cases l with
  | receive handle packet now =>
    obtain ⟨handler, hReceive, rfl⟩ := Option.map_eq_some_iff.mp hNext
    exact h.receive hReceive
  | imu timeType =>
    cases hNext
    exact ⟨h.configured, h.handles, h.known, h.frames, h.schedule⟩
  | process now => exact h.process hNext

theorem Inv.run (h : s.Inv config) (hRun : Run s s') : s'.Inv config := by
  induction hRun with
  | refl => exact h
  | tail _ hStep ih =>
    obtain ⟨l, -, hNext⟩ := hStep
    exact ih.next hNext

end Framing

end RoveMapping.Livox
