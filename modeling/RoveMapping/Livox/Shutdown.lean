import Mathlib.Algebra.Order.BigOperators.Group.Finset
import RoveMapping.Library.Potential
import RoveMapping.Livox.Starvation

/-! # The end of the poll thread

`~DriverNode` requests an exit, sets `exit_signal_` and joins the poll threads. Neither signals `pcd_semaphore_`, and
the publishing functions empty their queue before the thread looks at the request again. Between the two the thread
goes round and round.
-/
namespace RoveMapping.Livox
set_option autoImplicit false

open Resumption

def LdsLabel.consumes : LdsLabel → ℕ
  | .consume => 1
  | _ => 0

def LdsLabel.brings : LdsLabel → Bool
  | .frame _ => true
  | _ => false

namespace Lds

/-- The steps from a lidar to the end of the loop, when no packet is taken on the way. -/
def roundFrom (i : ℕ) : ℕ := 3 * (kMaxSourceLidar - i) + 2

/-- After `exit_signal_` is set, what the poll thread may still do before it returns. -/
def remaining (length : Index → ℕ) : Consumer → ℕ
  | .returned => 0
  | .future => 1
  | .start => 2
  | .wait => roundFrom 0 + 1
  | .lidar i => roundFrom i
  | .storage i => roundFrom (i + 1) + 2
  | .poll i => roundFrom (i + 1) + 1
  | .pollQueue i => 7 * length i + roundFrom (i + 1) + 3
  | .publish i => 7 * length i + roundFrom (i + 1) + 2
  | .prePop i => if length i = 0 then roundFrom (i + 1) + 3 else 7 * length i + roundFrom (i + 1) + 1
  | .baseTime i => 7 * length i + roundFrom (i + 1)
  | .pointsNum i _ => 7 * length i + roundFrom (i + 1) - 1
  | .points i _ _ => 7 * length i + roundFrom (i + 1) - 2
  | .popUpdate i _ => 7 * length i + roundFrom (i + 1) - 3
  | .deliver i _ => 7 * length i + roundFrom (i + 1) + 3

variable (s : Lds)

def waiting (i : Index) : ℕ := (s.contents i).length

/-- The packets that the queues have taken so far, each with the steps to publish it. -/
def earned : ℕ := 7 * ∑ i, (s.accepted i).length

structure Ending (s : Lds) : Prop where
  inv : s.Inv
  exit : s.requestExit = true
  signal : s.exitSignal = true

variable {s} {s' : Lds}

theorem roundFrom_succ {i : ℕ} (h : i < kMaxSourceLidar) : roundFrom i = roundFrom (i + 1) + 3 := by
  simp only [roundFrom]
  omega

theorem two_le_roundFrom (i : ℕ) : 2 ≤ roundFrom i := Nat.le_add_left ..

theorem roundFrom_le (i : ℕ) : roundFrom i ≤ 98 := by
  simp only [roundFrom, kMaxSourceLidar]
  omega

theorem remaining_le (length : Index → ℕ) (consumer : Consumer) : remaining length consumer ≤ 101 + 7 * ∑ i, length i := by
  have hOne (i : Index) : length i ≤ ∑ j, length j := Finset.single_le_sum (fun _ _ => Nat.zero_le _) (Finset.mem_univ i)
  cases consumer with
  | returned | start | wait | future =>
    have hRound := roundFrom_le 0
    simp only [remaining]
    omega
  | lidar i =>
    have hRound := roundFrom_le i
    simp only [remaining]
    omega
  | prePop i =>
    have hRound := roundFrom_le (i + 1)
    have hLength := hOne i
    rw [remaining]
    split <;> omega
  | storage i | poll i | pollQueue i | publish i | baseTime i | pointsNum i b | points i b n | popUpdate i p | deliver i p =>
    have hRound := roundFrom_le (i + 1)
    have hLength := hOne i
    rw [remaining]
    omega

/-- One more packet in a queue. -/
theorem remaining_store {length length' : Index → ℕ} {j : Index} (h : ∀ i, length' i = length i + if j = i then 1 else 0)
    (consumer : Consumer) : remaining length' consumer ≤ remaining length consumer + 7 := by
  cases consumer with
  | returned | start | wait | lidar i | storage i | poll i | future => exact Nat.le_add_right ..
  | prePop i =>
    have hLength := h i
    simp only [remaining]
    split at hLength <;> split <;> split <;> omega
  | pollQueue i | publish i | baseTime i | pointsNum i b | points i b n | popUpdate i p | deliver i p =>
    have hLength := h i
    simp only [remaining]
    split at hLength <;> omega

theorem waiting_pos {i : Index} {packet : StoragePacket} (hHead : (s.contents i).head? = some packet) :
    1 ≤ s.waiting i := by
  obtain ⟨rest, hRest⟩ := cons_of_head? hHead
  rw [waiting, hRest]
  exact Nat.le_add_left ..

theorem waiting_of_not_empty (h : s.Inv) {i : Index} (hEmpty : (s.queue i).queueIsEmpty = false) : 1 ≤ s.waiting i := by
  obtain ⟨packet, hHead⟩ := head?_of_not_empty h hEmpty
  exact waiting_pos hHead

theorem waiting_of_empty (h : s.Inv) {i : Index} (hEmpty : (s.queue i).queueIsEmpty = true) : s.waiting i = 0 := by
  rw [waiting, Lds.contents, ((h.flow.ok i).empty_iff.mp hEmpty)]
  rfl

theorem consume_pays (h : s.Ending) (hNext : s.consume = some s') :
    1 + remaining s'.waiting s'.consumer ≤ remaining s.waiting s.consumer := by
  have hCopied := h.inv.flow.consumer
  cases hConsumer : s.consumer with
  | start =>
    simp only [Lds.consume, hConsumer, h.exit, if_true, Option.some_inj] at hNext
    subst hNext
    exact le_rfl
  | wait =>
    simp only [Lds.consume, hConsumer] at hNext
    split at hNext <;> cases hNext
    show 1 + roundFrom 0 ≤ roundFrom 0 + 1
    omega
  | lidar i =>
    simp only [Lds.consume, hConsumer] at hNext
    split at hNext
    · rename_i hi
      have hRound := roundFrom_succ hi
      split at hNext <;> cases hNext
      · show 1 + (roundFrom (i + 1) + 2) ≤ roundFrom i
        omega
      · show 1 + roundFrom (i + 1) ≤ roundFrom i
        omega
    · cases hNext
      exact two_le_roundFrom i
  | storage i =>
    simp only [Lds.consume, hConsumer, Option.some_inj] at hNext
    subst hNext
    split
    · show 1 + roundFrom (i + 1) ≤ roundFrom (i + 1) + 2
      omega
    · show 1 + (roundFrom (i + 1) + 1) ≤ roundFrom (i + 1) + 2
      omega
  | poll i =>
    simp only [Lds.consume, hConsumer, h.exit, if_true, Option.some_inj] at hNext
    subst hNext
    show 1 + roundFrom (i + 1) ≤ roundFrom (i + 1) + 1
    omega
  | pollQueue i =>
    simp only [Lds.consume, hConsumer, Option.some_inj] at hNext
    subst hNext
    split
    · show 1 + roundFrom (i + 1) ≤ 7 * s.waiting i + roundFrom (i + 1) + 3
      omega
    · show 1 + (7 * s.waiting i + roundFrom (i + 1) + 2) ≤ 7 * s.waiting i + roundFrom (i + 1) + 3
      omega
  | publish i =>
    have hPoll : 1 + (roundFrom (i + 1) + 1) ≤ 7 * s.waiting i + roundFrom (i + 1) + 2 := by omega
    have hPrePop (hEmpty : ¬(s.queue i).queueIsEmpty = true) :
        1 + remaining s.waiting (.prePop i) ≤ 7 * s.waiting i + roundFrom (i + 1) + 2 := by
      have hSome := waiting_of_not_empty h.inv (Bool.eq_false_iff.mpr hEmpty)
      rw [remaining, if_neg (by omega)]
      omega
    simp only [Lds.consume, hConsumer] at hNext
    split at hNext <;> cases hNext
    · split
      · exact hPoll
      · exact hPrePop ‹_›
    · split
      · exact hPoll
      · exact hPrePop ‹_›
    · exact hPoll
    · exact hPoll
  | prePop i =>
    simp only [Lds.consume, hConsumer, Option.some_inj] at hNext
    subst hNext
    split
    · rename_i hEmpty
      have hNone := waiting_of_empty h.inv hEmpty
      show 1 + (7 * s.waiting i + roundFrom (i + 1) + 2) ≤ if s.waiting i = 0 then roundFrom (i + 1) + 3 else _
      rw [if_pos hNone]
      omega
    · rename_i hEmpty
      have hSome := waiting_of_not_empty h.inv (Bool.eq_false_iff.mpr hEmpty)
      show 1 + (7 * s.waiting i + roundFrom (i + 1)) ≤ if s.waiting i = 0 then _ else 7 * s.waiting i + roundFrom (i + 1) + 1
      rw [if_neg (by omega)]
      omega
  | baseTime i =>
    rw [hConsumer] at hCopied
    obtain ⟨packet, hHead⟩ := hCopied
    have hSome := waiting_pos hHead
    simp only [Lds.consume, hConsumer] at hNext
    obtain ⟨front, -, rfl⟩ := Option.map_eq_some_iff.mp hNext
    show 1 + (7 * s.waiting i + roundFrom (i + 1) - 1) ≤ 7 * s.waiting i + roundFrom (i + 1)
    omega
  | pointsNum i baseTime =>
    rw [hConsumer] at hCopied
    obtain ⟨packet, hHead, -⟩ := hCopied
    have hSome := waiting_pos hHead
    simp only [Lds.consume, hConsumer] at hNext
    obtain ⟨front, -, rfl⟩ := Option.map_eq_some_iff.mp hNext
    show 1 + (7 * s.waiting i + roundFrom (i + 1) - 2) ≤ 7 * s.waiting i + roundFrom (i + 1) - 1
    omega
  | points i baseTime pointsNum =>
    rw [hConsumer] at hCopied
    obtain ⟨packet, hHead, -⟩ := hCopied
    have hSome := waiting_pos hHead
    simp only [Lds.consume, hConsumer] at hNext
    obtain ⟨front, -, rfl⟩ := Option.map_eq_some_iff.mp hNext
    show 1 + (7 * s.waiting i + roundFrom (i + 1) - 3) ≤ 7 * s.waiting i + roundFrom (i + 1) - 2
    omega
  | popUpdate i packet =>
    rw [hConsumer] at hCopied
    obtain ⟨rest, hRest⟩ := cons_of_head? hCopied
    simp only [Lds.consume, hConsumer, Option.some_inj] at hNext
    subst hNext
    have hPopped : (s.setQueue i (s.queue i).queuePopUpdate).contents i = rest := by
      rw [contents_setQueue, if_pos rfl, (h.inv.flow.ok i).contents_pop hRest]
    have hRound := two_le_roundFrom (i + 1)
    show 1 + (7 * ((s.setQueue i (s.queue i).queuePopUpdate).contents i).length + roundFrom (i + 1) + 3) ≤
      7 * (s.contents i).length + roundFrom (i + 1) - 3
    rw [hPopped, hRest, List.length_cons]
    omega
  | deliver i packet =>
    simp only [Lds.consume, hConsumer, Option.some_inj] at hNext
    obtain ⟨formatted, published, hPublish⟩ := publish_unchanged s i packet
    rw [hPublish] at hNext
    subst hNext
    show 1 + (7 * s.waiting i + roundFrom (i + 1) + 2) ≤ 7 * s.waiting i + roundFrom (i + 1) + 3
    omega
  | future =>
    simp only [Lds.consume, hConsumer, h.signal, if_true, Option.some_inj] at hNext
    subst hNext
    exact le_rfl
  | returned => simp only [Lds.consume, hConsumer, reduceCtorEq] at hNext

theorem earned_log (job : Job) (kept : Bool) : (s.log job kept).earned = s.earned + if kept then 7 else 0 := by
  have hLength (i : Index) :
      ((s.log job kept).accepted i).length = (s.accepted i).length + if job.index = i ∧ kept then 1 else 0 := by
    rw [accepted_log, List.length_append]
    split <;> rfl
  simp only [earned, hLength, Finset.sum_add_distrib, mul_add]
  cases kept <;> simp

theorem earned_congr (h : s'.history = s.history) : s'.earned = s.earned := by
  simp only [earned, Lds.accepted, h]

theorem push_pays (h : s.Inv) {pc : PushAt} {job : Job} (hPush : s.producer = .push pc job) (consumer : Consumer) :
    remaining (s.push job pc).waiting consumer + s.earned ≤ remaining s.waiting consumer + (s.push job pc).earned := by
  have hSame (hPc : pc ≠ .update) (hEarned : (s.push job pc).earned = s.earned) :
      remaining (s.push job pc).waiting consumer + s.earned ≤ remaining s.waiting consumer + (s.push job pc).earned := by
    have hWaiting : (s.push job pc).waiting = s.waiting := by
      funext i
      rw [waiting, h.contents_push hPush hPc i]
      rfl
    rw [hWaiting, hEarned]
  cases pc with
  | update =>
    have hWaiting (i : Index) : (s.push job .update).waiting i = s.waiting i + if job.index = i then 1 else 0 := by
      rw [waiting, h.contents_update hPush i, List.length_append]
      split <;> rfl
    have hEarned : (s.push job .update).earned = s.earned + 7 := calc
      (s.push job .update).earned = (s.log job true).earned := earned_congr rfl
      _ = s.earned + 7 := by simp [earned_log]
    have hRemaining := remaining_store hWaiting consumer
    omega
  | checkFull =>
    refine hSame (by simp) ?_
    simp only [Lds.push]
    split
    · calc
        _ = (s.log job false).earned := earned_congr rfl
        _ = s.earned := by simp [earned_log]
    · exact earned_congr rfl
  | checkStorage =>
    refine hSame (by simp) ?_
    simp only [Lds.push]
    split <;> exact earned_congr rfl
  | baseTime | pointsNum | clear | resize | copy | checkEmpty | checkCount | signal => exact hSame (by simp) (earned_congr rfl)

/-- A step that leaves the queues, the poll thread and the records alone. -/
theorem remaining_congr (hContents : ∀ i, s'.contents i = s.contents i) (hConsumer : s'.consumer = s.consumer)
    (hHistory : s'.history = s.history) :
    0 + remaining s'.waiting s'.consumer + s.earned ≤ remaining s.waiting s.consumer + s'.earned := by
  have hWaiting : s'.waiting = s.waiting := funext fun i => congrArg List.length (hContents i)
  rw [hWaiting, hConsumer, earned_congr hHistory, Nat.zero_add]

theorem requestExit_of_exitSignal {queueSize : BitVec 32} {lddc : Lddc} (hRun : Run (initial queueSize lddc) s)
    (hSignal : s.exitSignal = true) : s.requestExit = true := by
  induction hRun with
  | refl => cases hSignal
  | tail _ hStep ih =>
    obtain ⟨l, -, hNext⟩ := hStep
    obtain ⟨hExit, -, hBefore⟩ := exit_next hNext
    rcases hBefore hSignal with hSet | hRequested
    · exact hExit (ih hSet)
    · exact hRequested

theorem pays : Pays next (fun _ _ => True) Ending LdsLabel.consumes (fun s => remaining s.waiting s.consumer) earned where
  keeps s l s' h _ hNext := by
    obtain ⟨hExit, hSignal, -⟩ := exit_next hNext
    exact ⟨h.inv.next hNext, hExit h.exit, hSignal h.signal⟩
  step s l s' h _ hNext := by
    cases l with
    | register handle | requestExit =>
      cases hNext
      exact remaining_congr (fun _ => rfl) rfl rfl
    | sampling i =>
      cases hNext
      exact remaining_congr (fun j => congrArg LidarDataQueue.contents (queue_startSampling i j)) rfl rfl
    | exitSignal | frame entries =>
      simp only [Lds.next] at hNext
      split at hNext <;> cases hNext
      exact remaining_congr (fun _ => rfl) rfl rfl
    | produce =>
      rw [Lds.next, Lds.produce] at hNext
      split at hNext
      · rename_i pc job hPush
        cases hNext
        have hPays := push_pays h.inv hPush s.consumer
        rwa [(push_unchanged s job pc).1, show LdsLabel.consumes .produce = 0 from rfl, Nat.zero_add]
      · cases hNext
      · split at hNext <;> cases hNext <;> exact remaining_congr (fun _ => rfl) rfl rfl
    | consume =>
      have hPays := consume_pays h hNext
      rw [earned_congr (consume_unchanged hNext).1]
      exact Nat.add_le_add_right hPays _

/-- The poll thread has a step unless it has returned or waits. -/
theorem stuck_cases (h : s.Inv) (hStuck : s.consume = none) :
    s.consumer = .returned ∨ s.consumer = .wait ∧ s.count = 0 := by
  have hCopied := h.flow.consumer
  have hFront {i : Index} {packet : StoragePacket} {f : StoragePacket → Lds} (hHead : (s.contents i).head? = some packet) :
      (s.queue i).frontSlot.map f ≠ none := by
    rw [frontSlot_of_head? h hHead]
    exact nofun
  cases hConsumer : s.consumer with
  | returned => exact .inl rfl
  | wait =>
    simp only [Lds.consume, hConsumer] at hStuck
    split at hStuck
    · cases hStuck
    · have hCount := h.count
      exact .inr ⟨rfl, by omega⟩
  | start | storage i | poll i | pollQueue i | prePop i | popUpdate i packet | deliver i packet | future =>
    simp only [Lds.consume, hConsumer, reduceCtorEq] at hStuck
  | lidar i | publish i =>
    simp only [Lds.consume, hConsumer] at hStuck
    split at hStuck
    · first | cases hStuck | (split at hStuck <;> cases hStuck)
    all_goals cases hStuck
  | baseTime i =>
    rw [hConsumer] at hCopied
    obtain ⟨packet, hHead⟩ := hCopied
    simp only [Lds.consume, hConsumer] at hStuck
    exact absurd hStuck (hFront hHead)
  | pointsNum i baseTime | points i baseTime pointsNum =>
    rw [hConsumer] at hCopied
    obtain ⟨packet, hHead, -⟩ := hCopied
    simp only [Lds.consume, hConsumer] at hStuck
    exact absurd hStuck (hFront hHead)

/-- The poll thread waits, and no packet is on its way to the queues. -/
structure Dormant (s : Lds) : Prop where
  consumer : s.consumer = .wait
  count : s.count = 0
  producer : s.producer = .next
  frame : s.frame = []

theorem Dormant.next {l : LdsLabel} (h : s.Dormant) (hFrame : l.brings = false) (hNext : s.next l = some s') : s'.Dormant := by
  cases l with
  | register handle | sampling i | requestExit =>
    cases hNext
    exact ⟨h.consumer, h.count, h.producer, h.frame⟩
  | exitSignal =>
    simp only [Lds.next] at hNext
    split at hNext <;> cases hNext
    exact ⟨h.consumer, h.count, h.producer, h.frame⟩
  | frame entries => cases hFrame
  | produce => simp only [Lds.next, Lds.produce, h.producer, h.frame, reduceCtorEq] at hNext
  | consume => simp only [Lds.next, Lds.consume, h.consumer, h.count, lt_irrefl, if_false, reduceCtorEq] at hNext

theorem Dormant.run (h : s.Dormant) (hRun : Reaches Lds.next (fun _ l => l.brings = false) s s') : s'.Dormant := by
  induction hRun with
  | refl => exact h
  | tail _ hStep ih =>
    obtain ⟨l, hFrame, hNext⟩ := hStep
    exact ih.next hFrame hNext

end Lds

/-- Once `exit_signal_` is set the poll thread makes at most 101 steps, and 7 for each packet that a queue holds or
takes later. It stops where it returns or where it waits, and a thread that waits while no packet is on its way is not
woken until a frame comes. -/
theorem exit_stops_the_poll_thread {queueSize : BitVec 32} {lddc : Lddc} {s s' : Lds}
    (hRun : Lds.Run (.initial queueSize lddc) s) (hSignal : s.exitSignal = true) {labels : List LdsLabel}
    (hLater : replay Lds.next (fun _ _ => True) labels s = some s') :
    (total LdsLabel.consumes labels + 7 * ∑ i, (s.accepted i).length ≤
      101 + 7 * ∑ i, (s.contents i).length + 7 * ∑ i, (s'.accepted i).length) ∧
    (s'.consume = none → s'.consumer = .returned ∨ s'.consumer = .wait ∧ s'.count = 0) ∧
    (s'.Dormant → ∀ s'', Reaches Lds.next (fun _ l => l.brings = false) s' s'' → s''.consumer = .wait) := by
  have hEnding : s.Ending :=
    ⟨(Lds.inv_initial queueSize lddc).run hRun, Lds.requestExit_of_exitSignal hRun hSignal, hSignal⟩
  obtain ⟨hEnding', hPaid⟩ := Lds.pays.replay hEnding hLater
  have hBound := Lds.remaining_le s.waiting s.consumer
  refine ⟨?_, Lds.stuck_cases hEnding'.inv, fun hDormant s'' hRest => (hDormant.run hRest).consumer⟩
  simp only [Lds.earned, Lds.waiting] at hPaid hBound
  omega

/-- The exit finds the poll thread with a packet in its hand; it publishes the packet, ends the round and stops. -/
theorem exit_stops_the_poll_thread_busy : ∃ s s' : Lds, Lds.Run (.initial 2 ⟨.livoxCustom, true, .toRos⟩) s ∧
    s.exitSignal = true ∧ replay Lds.next (fun _ _ => True) (List.replicate 36 .consume) s = some s' ∧
    36 + 7 * ∑ i, (s.accepted i).length ≤ 101 + 7 * ∑ i, (s.contents i).length + 7 * ∑ i, (s'.accepted i).length ∧
    (s'.consumer = .returned ∨ s'.consumer = .wait ∧ s'.count = 0) := by
  let entry (baseTime : UInt64) : PointPacket × UInt64 := (⟨7, kLivoxLidarType, [⟨0, 0, 0, 0, 0, 0, baseTime⟩]⟩, baseTime)
  obtain ⟨s, hRun, hState⟩ : ∃ s : Lds, Lds.Run (.initial 2 ⟨.livoxCustom, true, .toRos⟩) s ∧ (s.exitSignal,
      (replay Lds.next (fun _ _ => True) (List.replicate 36 .consume) s).map fun s' => s'.consume.isNone) = (true, some true) :=
    Reaches.of_observed ([.register 7, .sampling 0, .frame [entry 5]] ++ List.replicate 12 .produce ++
      List.replicate 12 .consume ++ [.requestExit, .exitSignal]) _ (by decide +kernel)
  obtain ⟨hSignal, hStopped⟩ := Prod.mk.inj hState
  obtain ⟨s', hLater, hNone⟩ := Option.map_eq_some_iff.mp hStopped
  obtain ⟨hBound, hStop, -⟩ := exit_stops_the_poll_thread hRun hSignal hLater
  exact ⟨s, s', hRun, hSignal, hLater, hBound, hStop (Option.isNone_iff_eq_none.mp hNone)⟩

end RoveMapping.Livox
