import RoveMapping.Livox.Distribution

/-! # No packet waits for a signal that nobody sends

`PushLidarData` reads the count of the semaphore without its lock and signals only where it is zero. With one storing
thread that is enough: a lidar that samples is visited after every packet it was given.
-/
namespace RoveMapping.Livox
set_option autoImplicit false

open Resumption RingBuffer

namespace Lds

variable {s s' : Lds}

section Wakeups

/-- The thread that stores the packets has yet to look at the semaphore. -/
def Announcing (i : Index) : Producer → Prop
  | .push .checkEmpty job => job.index = i
  | .push .checkCount _ | .push .signal _ => True
  | _ => False

/-- The round of the poll thread has not left the lidar yet. -/
def Ahead (i : Index) : Consumer → Prop
  | .lidar j => j ≤ i
  | .storage j | .poll j | .pollQueue j | .publish j | .prePop j | .baseTime j | .pointsNum j _ | .points j _ _
  | .popUpdate j _ | .deliver j _ => j ≤ i
  | .start | .wait | .future | .returned => False

/-- A sampling lidar with packets will be visited. -/
structure Awake (s : Lds) (i : Index) : Prop where
  sampling : (s.lidars i).connectState = .sampling
  noticed : s.contents i ≠ [] → 0 < s.count ∨ Announcing i s.producer ∨ Ahead i s.consumer ∨ s.requestExit = true

variable {i : Index}

theorem Awake.goto (h : s.Awake i) {now consumer : Consumer} (hConsumer : s.consumer = now)
    (hAhead : s.contents i ≠ [] → Ahead i now → Ahead i consumer ∨ s.requestExit = true) : (s.goto consumer).Awake i where
  sampling := h.sampling
  noticed hSome := by
    rcases h.noticed hSome with hCount | hProducer | hNow | hExit
    · exact .inl hCount
    · exact .inr (.inl hProducer)
    · exact .inr (.inr (hAhead hSome (hConsumer ▸ hNow)))
    · exact .inr (.inr (.inr hExit))

/-- Leaving lidar `j` behind is no harm unless it is the one with packets. -/
theorem ahead_succ {j : ℕ} (hj : j ≤ i) (hNe : j ≠ i) : Ahead i (.lidar (j + 1)) := by
  show j + 1 ≤ i
  omega

theorem Awake.consume (hInv : s.Inv) (h : s.Awake i) (hNext : s.consume = some s') : s'.Awake i := by
  cases hConsumer : s.consumer with
  | start | future =>
    simp only [Lds.consume, hConsumer, Option.some_inj] at hNext
    subst hNext
    exact h.goto hConsumer fun _ hNow => hNow.elim
  | wait =>
    simp only [Lds.consume, hConsumer] at hNext
    split at hNext
    · cases hNext
      exact ⟨h.sampling, fun _ => .inr (.inr (.inl (Nat.zero_le _)))⟩
    · cases hNext
  | lidar j =>
    simp only [Lds.consume, hConsumer] at hNext
    split at hNext
    · rename_i hj
      split at hNext <;> cases hNext
      · exact h.goto hConsumer fun _ hNow => .inl hNow
      · rename_i hState
        refine h.goto hConsumer fun _ hNow => .inl (ahead_succ hNow fun hEq => hState ?_)
        have hIndex : (⟨j, hj⟩ : Index) = i := Fin.ext hEq
        rw [hIndex]
        exact h.sampling
    · cases hNext
      refine h.goto hConsumer fun _ (hNow : j ≤ i) => ?_
      omega
  | storage j =>
    simp only [Lds.consume, hConsumer, Option.some_inj] at hNext
    subst hNext
    refine h.goto hConsumer fun hSome hNow => .inl ?_
    split
    · rename_i hStorage
      refine ahead_succ hNow fun hEq => hSome ?_
      rw [← Fin.ext hEq]
      exact (hInv.flow.ok j).contents_of_none (Option.isNone_iff_eq_none.mp hStorage)
    · exact hNow
  | poll j =>
    simp only [Lds.consume, hConsumer, Option.some_inj] at hNext
    subst hNext
    refine h.goto hConsumer fun _ hNow => ?_
    split
    · exact .inr ‹_›
    · exact .inl hNow
  | pollQueue j =>
    simp only [Lds.consume, hConsumer, Option.some_inj] at hNext
    subst hNext
    refine h.goto hConsumer fun hSome hNow => .inl ?_
    split
    · rename_i hEmpty
      refine ahead_succ hNow fun hEq => hSome ?_
      rw [← Fin.ext hEq]
      exact (hInv.flow.ok j).empty_iff.mp hEmpty
    · exact hNow
  | publish j =>
    simp only [Lds.consume, hConsumer] at hNext
    split at hNext <;> cases hNext <;> refine h.goto hConsumer fun _ hNow => .inl ?_
    · split <;> exact hNow
    · split <;> exact hNow
    · exact hNow
    · exact hNow
  | prePop j =>
    simp only [Lds.consume, hConsumer, Option.some_inj] at hNext
    subst hNext
    refine h.goto hConsumer fun _ hNow => .inl ?_
    split <;> exact hNow
  | baseTime j | pointsNum j baseTime | points j baseTime pointsNum =>
    simp only [Lds.consume, hConsumer, Option.map_eq_some_iff] at hNext
    obtain ⟨packet, -, rfl⟩ := hNext
    exact h.goto hConsumer fun _ hNow => .inl hNow
  | popUpdate j packet =>
    simp only [Lds.consume, hConsumer, Option.some_inj] at hNext
    subst hNext
    have hHead := hInv.flow.consumer
    rw [hConsumer] at hHead
    have hGoto : (s.goto (.deliver j packet)).Awake i := h.goto hConsumer fun _ hNow => .inl hNow
    refine ⟨(connectState_setQueue j i _).trans h.sampling, fun hSome => hGoto.noticed fun hEmpty => hSome ?_⟩
    show (s.setQueue j (s.queue j).queuePopUpdate).contents i = []
    rw [contents_setQueue]
    split
    · subst i
      obtain ⟨rest, hRest⟩ := cons_of_head? hHead
      rw [show s.contents j = [] from hEmpty] at hRest
      cases hRest
    · exact hEmpty
  | deliver j packet =>
    simp only [Lds.consume, hConsumer, Option.some_inj] at hNext
    subst hNext
    have hGoto : (s.goto (.publish j)).Awake i := h.goto hConsumer fun _ hNow => .inl hNow
    obtain ⟨formatted, published, hPublish⟩ := publish_unchanged s j packet
    rw [hPublish]
    exact ⟨hGoto.sampling, hGoto.noticed⟩
  | returned => simp only [Lds.consume, hConsumer, reduceCtorEq] at hNext

/-- What the storing thread does before it has stored a packet. -/
theorem Awake.quiet (h : s.Awake i) (hState : (s'.lidars i).connectState = (s.lidars i).connectState)
    (hContents : s'.contents i = s.contents i) (hProducer : ¬Announcing i s.producer) (hCount : s'.count = s.count)
    (hConsumer : s'.consumer = s.consumer) (hExit : s'.requestExit = s.requestExit) : s'.Awake i where
  sampling := hState.trans h.sampling
  noticed hSome := by
    rw [hContents] at hSome
    rw [hCount, hConsumer, hExit]
    rcases h.noticed hSome with hPos | hNow | hRest
    · exact .inl hPos
    · exact absurd hNow hProducer
    · exact .inr (.inr hRest)

theorem Awake.push (hInv : s.Inv) (h : s.Awake i) {pc : PushAt} {job : Job} (hPush : s.producer = .push pc job) :
    (s.push job pc).Awake i := by
  have hQuiet (hPc : pc ≠ .update) (hProducer : ¬Announcing i (.push pc job)) (hCount : (s.push job pc).count = s.count) :
      (s.push job pc).Awake i :=
    have hUnchanged := push_unchanged s job pc
    h.quiet (connectState_push s job pc i) (hInv.contents_push hPush hPc i) (hPush ▸ hProducer) hCount hUnchanged.1
      hUnchanged.2.1
  cases pc with
  | checkStorage | checkFull =>
    refine hQuiet (by decide) id ?_
    simp only [Lds.push]
    split <;> rfl
  | baseTime | pointsNum | clear | resize | copy => exact hQuiet (by decide) id rfl
  | update =>
    refine ⟨(connectState_push s job .update i).trans h.sampling, fun hSome => ?_⟩
    rw [hInv.contents_update hPush] at hSome
    by_cases hi : job.index = i
    · exact .inr (.inl hi)
    · rw [if_neg hi, List.append_nil] at hSome
      rcases h.noticed hSome with hPos | hNow | hRest
      · exact .inl hPos
      · rw [hPush] at hNow
        exact hNow.elim
      · exact .inr (.inr hRest)
  | checkEmpty =>
    refine ⟨h.sampling, fun hSome => ?_⟩
    show _ ∨ Announcing i (if (s.queue job.index).queueIsEmpty = true then .next else .push .checkCount job) ∨ _
    split
    · rename_i hEmpty
      rcases h.noticed hSome with hPos | hNow | hRest
      · exact .inl hPos
      · rw [hPush] at hNow
        have hIndex : job.index = i := hNow
        rw [hIndex] at hEmpty
        exact absurd ((hInv.flow.ok i).empty_iff.mp hEmpty) hSome
      · exact .inr (.inr hRest)
    · exact .inr (.inl trivial)
  | checkCount =>
    refine ⟨h.sampling, fun hSome => ?_⟩
    show _ ∨ Announcing i (if s.count ≤ 0 then .push .signal job else .next) ∨ _
    split
    · exact .inr (.inl trivial)
    · exact .inl (not_le.mp ‹_›)
  | signal =>
    refine ⟨h.sampling, fun _ => .inl ?_⟩
    have hZero := hInv.signal job hPush
    show 0 < s.count + 1
    omega

theorem Awake.produce (hInv : s.Inv) (h : s.Awake i) (hNext : s.produce = some s') : s'.Awake i := by
  rw [Lds.produce] at hNext
  split at hNext
  · rename_i pc job hPush
    cases hNext
    exact h.push hInv hPush
  · cases hNext
  · rename_i hProducer _
    split at hNext <;> cases hNext <;> exact h.quiet rfl rfl (by rw [hProducer]; exact id) rfl rfl rfl

theorem Awake.next {l : LdsLabel} (hInv : s.Inv) (h : s.Awake i) (hNext : s.next l = some s') : s'.Awake i := by
  cases l with
  | register handle =>
    cases hNext
    exact ⟨h.sampling, h.noticed⟩
  | sampling j =>
    cases hNext
    refine ⟨?_, fun hSome => h.noticed fun hEmpty => hSome ?_⟩
    · by_cases hj : i = j
      · subst hj
        simp [startSampling]
      · simpa [startSampling, hj] using h.sampling
    · rw [contents, queue_startSampling]
      exact hEmpty
  | requestExit =>
    cases hNext
    exact ⟨h.sampling, fun _ => .inr (.inr (.inr rfl))⟩
  | exitSignal | frame entries =>
    simp only [Lds.next] at hNext
    split at hNext
    · cases hNext
      exact ⟨h.sampling, h.noticed⟩
    · cases hNext
  | produce => exact h.produce hInv hNext
  | consume => exact h.consume hInv hNext

end Wakeups

theorem Awake.run {i : Index} (hInv : s.Inv) (h : s.Awake i) (hRun : Run s s') : s'.Awake i := by
  induction hRun with
  | refl => exact h
  | tail hBefore hStep ih =>
    obtain ⟨l, -, hNext⟩ := hStep
    exact ih.next (hInv.run hBefore) hNext

end Lds

/-- Where the poll thread waits and the storing thread is between two packets, everything that a lidar's queue took is
published, if the queue was empty at some moment after the lidar began to sample and the output is to ROS. -/
theorem no_lost_wakeup {queueSize : BitVec 32} {lddc : Lddc} (hRos : lddc.outputType = .toRos) {s₀ s : Lds} {i : Index}
    (hBefore : Lds.Run (.initial queueSize lddc) s₀) (hSampling : (s₀.lidars i).connectState = .sampling)
    (hEmpty : s₀.contents i = []) (hRun : Lds.Run s₀ s) (hWait : s.consumer = .wait) (hCount : s.count = 0)
    (hIdle : s.producer = .next) (hExit : s.requestExit = false) : s.publishedOn i = Lds.visible (s.accepted i) := by
  have hInv₀ := (Lds.inv_initial queueSize lddc).run hBefore
  have hAwake : s₀.Awake i := ⟨hSampling, fun hSome => absurd hEmpty hSome⟩
  have hInv := hInv₀.run hRun
  have hContents : s.contents i = [] := by
    by_contra hSome
    rcases (hAwake.run hInv₀ hRun).noticed hSome with hPos | hNow | hAhead | hNow
    · omega
    · rw [hIdle] at hNow
      exact hNow
    · rw [hWait] at hAhead
      exact hAhead
    · rw [hExit] at hNow
      cases hNow
  have hOrder := hInv.flow.order i
  have hLddc : s.lddc = lddc := Lds.lddc_run (hBefore.trans hRun)
  rw [← hInv.flow.sent.publishedOn (hLddc ▸ hRos), hContents, hWait] at hOrder
  simpa [Lds.visible, Lds.inHand] using hOrder.symm

def Consumer.waits : Consumer → Bool
  | .wait => true
  | _ => false

def Producer.idle : Producer → Bool
  | .next => true
  | .push _ _ => false

theorem Consumer.eq_wait {consumer : Consumer} (h : consumer.waits = true) : consumer = .wait := by
  cases consumer with
  | wait => rfl
  | _ => cases h

theorem Producer.eq_next {producer : Producer} (h : producer.idle = true) : producer = .next := by
  cases producer with
  | next => rfl
  | push pc job => cases h

theorem no_lost_wakeup_frame : ∃ s : Lds, Lds.Run (.initial 2 ⟨.livoxCustom, true, .toRos⟩) s ∧
    (Lds.visible (s.accepted 0)).map StoragePacket.baseTime = [5, 6] ∧ s.publishedOn 0 = Lds.visible (s.accepted 0) := by
  let entry (baseTime : UInt64) : PointPacket × UInt64 := (⟨7, kLivoxLidarType, [⟨0, 0, 0, 0, 0, 0, baseTime⟩]⟩, baseTime)
  have hBefore : Lds.Run (.initial 2 ⟨.livoxCustom, true, .toRos⟩) ((Lds.initial 2 ⟨.livoxCustom, true, .toRos⟩).startSampling 0) :=
    .single ⟨.sampling 0, trivial, rfl⟩
  obtain ⟨s, hRun, hState⟩ : ∃ s : Lds, Lds.Run ((Lds.initial 2 ⟨.livoxCustom, true, .toRos⟩).startSampling 0) s ∧
      ((Lds.visible (s.accepted 0)).map StoragePacket.baseTime, s.count, s.requestExit, s.consumer.waits,
        s.producer.idle) = ([5, 6], 0, false, true, true) :=
    Reaches.of_observed ([.register 7, .frame [entry 5, entry 6]] ++ List.replicate 23 .produce ++
      List.replicate 57 .consume) _ (by decide +kernel)
  simp only [Prod.mk.injEq] at hState
  obtain ⟨hAccepted, hCount, hExit, hWait, hIdle⟩ := hState
  exact ⟨s, hBefore.trans hRun, hAccepted,
    no_lost_wakeup rfl hBefore rfl rfl hRun (Consumer.eq_wait hWait) hCount (Producer.eq_next hIdle) hExit⟩

end RoveMapping.Livox
