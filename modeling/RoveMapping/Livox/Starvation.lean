import RoveMapping.Livox.Distribution

/-! # A format that nothing is published in

`PublishPclMsg` returns at once under ROS 2, and for an unknown format `PollingLidarPointCloudData` calls nothing. Its
loop then goes on until the queue is empty, which only publishing would make it.
-/
namespace RoveMapping.Livox
set_option autoImplicit false

open Resumption

def TransferFormat.Unpublished (format : TransferFormat) : Prop := format = .pclPxyzi ∨ format = .other

namespace Lds

/-- The poll thread is not taking a packet. -/
def Idle : Consumer → Prop
  | .start | .wait | .lidar _ | .storage _ | .poll _ | .pollQueue _ | .publish _ | .future | .returned => True
  | .prePop _ | .baseTime _ | .pointsNum _ _ | .points _ _ _ | .popUpdate _ _ | .deliver _ _ => False

structure Silent (s : Lds) : Prop where
  format : s.lddc.transferFormat.Unpublished
  consumer : Idle s.consumer
  formatted : s.formatted = []
  published : s.published = []

/-- The loop over the packets of one lidar. -/
def PollsAt (i : Index) (consumer : Consumer) : Prop :=
  consumer = .poll i ∨ consumer = .pollQueue i ∨ consumer = .publish i

variable {s s' : Lds} {i : Index}

theorem Silent.goto (h : s.Silent) {consumer : Consumer} (hIdle : Idle consumer) : (s.goto consumer).Silent :=
  ⟨h.format, hIdle, h.formatted, h.published⟩

theorem Silent.consume (h : s.Silent) (hNext : s.consume = some s') : s'.Silent := by
  have hIdle := h.consumer
  cases hConsumer : s.consumer with
  | start | storage i | poll i | pollQueue i | future =>
    simp only [Lds.consume, hConsumer, Option.some_inj] at hNext
    subst hNext
    split <;> exact h.goto trivial
  | wait =>
    simp only [Lds.consume, hConsumer] at hNext
    split at hNext
    · cases hNext
      exact ⟨h.format, trivial, h.formatted, h.published⟩
    · cases hNext
  | lidar i =>
    simp only [Lds.consume, hConsumer] at hNext
    split at hNext
    · split at hNext <;> cases hNext <;> exact h.goto trivial
    · cases hNext
      exact h.goto trivial
  | publish i =>
    rcases h.format with hFormat | hFormat
    · simp only [Lds.consume, hConsumer, hFormat, Option.some_inj] at hNext
      exact hNext ▸ h.goto trivial
    · simp only [Lds.consume, hConsumer, hFormat, Option.some_inj] at hNext
      exact hNext ▸ h.goto trivial
  | returned => simp only [Lds.consume, hConsumer, reduceCtorEq] at hNext
  | prePop i | baseTime i | pointsNum i baseTime | points i baseTime pointsNum | popUpdate i packet | deliver i packet =>
    rw [hConsumer] at hIdle
    exact hIdle.elim

theorem Silent.produce (h : s.Silent) (hNext : s.produce = some s') : s'.Silent := by
  rw [Lds.produce] at hNext
  split at hNext
  · rename_i pc job hPush
    cases hNext
    obtain ⟨hConsumer, -, -, hLddc, hFormatted, hPublished⟩ := push_unchanged s job pc
    exact ⟨hLddc ▸ h.format, hConsumer ▸ h.consumer, hFormatted.trans h.formatted, hPublished.trans h.published⟩
  · cases hNext
  · split at hNext <;> cases hNext <;> exact ⟨h.format, h.consumer, h.formatted, h.published⟩

theorem Silent.next {l : LdsLabel} (h : s.Silent) (hNext : s.next l = some s') : s'.Silent := by
  cases l with
  | register handle | sampling j | requestExit =>
    cases hNext
    exact ⟨h.format, h.consumer, h.formatted, h.published⟩
  | exitSignal | frame entries =>
    simp only [Lds.next] at hNext
    split at hNext
    · cases hNext
      exact ⟨h.format, h.consumer, h.formatted, h.published⟩
    · cases hNext
  | produce => exact h.produce hNext
  | consume => exact h.consume hNext

theorem Silent.run (h : s.Silent) (hRun : Run s s') : s'.Silent := by
  induction hRun with
  | refl => exact h
  | tail _ hStep ih =>
    obtain ⟨l, -, hNext⟩ := hStep
    exact ih.next hNext

/-- The poll thread is held by one lidar. -/
structure Held (s : Lds) (i : Index) : Prop where
  consumer : PollsAt i s.consumer
  contents : s.contents i ≠ []

theorem Held.consume (hInv : s.Inv) (hSilent : s.Silent) (h : s.Held i) (hExit : s.requestExit = false)
    (hNext : s.consume = some s') : s'.Held i := by
  have hEmpty : (s.queue i).queueIsEmpty = false := by
    rw [Bool.eq_false_iff, Ne, (hInv.flow.ok i).empty_iff]
    exact h.contents
  rcases h.consumer with hConsumer | hConsumer | hConsumer
  · simp only [Lds.consume, hConsumer, hExit, Bool.false_eq_true, if_false, Option.some_inj] at hNext
    subst hNext
    exact ⟨.inr (.inl rfl), h.contents⟩
  · simp only [Lds.consume, hConsumer, hEmpty, Bool.false_eq_true, if_false, Option.some_inj] at hNext
    subst hNext
    exact ⟨.inr (.inr rfl), h.contents⟩
  · rcases hSilent.format with hFormat | hFormat
    · simp only [Lds.consume, hConsumer, hFormat, Option.some_inj] at hNext
      subst hNext
      exact ⟨.inl rfl, h.contents⟩
    · simp only [Lds.consume, hConsumer, hFormat, Option.some_inj] at hNext
      subst hNext
      exact ⟨.inl rfl, h.contents⟩

theorem Held.produce (hInv : s.Inv) (h : s.Held i) (hNext : s.produce = some s') : s'.Held i := by
  rw [Lds.produce] at hNext
  split at hNext
  · rename_i pc job hPush
    cases hNext
    refine ⟨(push_unchanged s job pc).1 ▸ h.consumer, ?_⟩
    by_cases hPc : pc = .update
    · subst hPc
      rw [hInv.contents_update hPush]
      exact fun hNil => h.contents (List.append_eq_nil_iff.mp hNil).1
    · rw [hInv.contents_push hPush hPc]
      exact h.contents
  · cases hNext
  · split at hNext <;> cases hNext <;> exact ⟨h.consumer, h.contents⟩

theorem Held.next {l : LdsLabel} (hInv : s.Inv) (hSilent : s.Silent) (h : s.Held i) (hExit : s.requestExit = false)
    (hNext : s.next l = some s') : s'.Held i := by
  cases l with
  | register handle | requestExit =>
    cases hNext
    exact ⟨h.consumer, h.contents⟩
  | sampling j =>
    cases hNext
    refine ⟨h.consumer, ?_⟩
    rw [Lds.contents, queue_startSampling]
    exact h.contents
  | exitSignal | frame entries =>
    simp only [Lds.next] at hNext
    split at hNext
    · cases hNext
      exact ⟨h.consumer, h.contents⟩
    · cases hNext
  | produce => exact h.produce hInv hNext
  | consume => exact h.consume hInv hSilent hExit hNext

theorem Held.run (hInv : s.Inv) (hSilent : s.Silent) (h : s.Held i) (hRun : Run s s') (hExit : s'.requestExit = false) :
    s'.Held i := by
  induction hRun with
  | refl => exact h
  | @tail before after hBefore hStep ih =>
    obtain ⟨l, -, hNext⟩ := hStep
    have hExit' : before.requestExit = false := by
      by_contra hRequested
      rw [(exit_next hNext).1 (Bool.not_eq_false _ ▸ hRequested)] at hExit
      cases hExit
    exact (ih hExit').next (hInv.run hBefore) (hSilent.run hBefore) hExit' hNext

end Lds

/-- In such a format every packet stays in its queue, and the first lidar with a packet holds the poll thread until an
exit is requested. -/
theorem unpublished_format_starves {queueSize : BitVec 32} {lddc : Lddc} (hFormat : lddc.transferFormat.Unpublished)
    {s s' : Lds} (hRun : Lds.Run (.initial queueSize lddc) s) (hLater : Lds.Run s s') (i : Index) :
    s.publishedOn i = [] ∧ Lds.visible (s.accepted i) = Lds.visible (s.contents i) ∧
    (Lds.PollsAt i s.consumer → s.contents i ≠ [] → s'.requestExit = false → Lds.PollsAt i s'.consumer) := by
  have hInitial : (Lds.initial queueSize lddc).Silent := ⟨hFormat, trivial, rfl, rfl⟩
  have hSilent := hInitial.run hRun
  have hInv := (Lds.inv_initial queueSize lddc).run hRun
  have hPublished : s.publishedOn i = [] := by rw [Lds.publishedOn, hSilent.published]; rfl
  have hFormatted : s.formattedOn i = [] := by rw [Lds.formattedOn, hSilent.formatted]; rfl
  have hHand : Lds.inHand i s.consumer = [] := by
    have hIdle := hSilent.consumer
    cases hConsumer : s.consumer with
    | deliver j packet =>
      rw [hConsumer] at hIdle
      exact hIdle.elim
    | _ => rfl
  refine ⟨hPublished, ?_, fun hPolls hSome hExit => (Lds.Held.run hInv hSilent ⟨hPolls, hSome⟩ hLater hExit).consumer⟩
  have hOrder := hInv.flow.order i
  rw [hFormatted, hHand] at hOrder
  have hNone : Lds.visible [] = [] := rfl
  rwa [List.nil_append, hNone, List.nil_append] at hOrder

def Consumer.publishes : Consumer → Option Index
  | .publish i => some i
  | _ => none

theorem Consumer.eq_publish {consumer : Consumer} {i : Index} (h : consumer.publishes = some i) : consumer = .publish i := by
  cases consumer with
  | publish j => exact congrArg _ (Option.some_inj.mp h)
  | _ => cases h

/-- A packet in the format for ROS 1. -/
theorem unpublished_format_starves_pcl : ∃ s : Lds, Lds.Run (.initial 2 ⟨.pclPxyzi, false, .toRos⟩) s ∧
    (s.contents 0).map StoragePacket.baseTime = [5] ∧ s.publishedOn 0 = [] ∧
    ∀ s', Lds.Run s s' → s'.requestExit = false → Lds.PollsAt 0 s'.consumer := by
  let entry (baseTime : UInt64) : PointPacket × UInt64 := (⟨7, kLivoxLidarType, [⟨0, 0, 0, 0, 0, 0, baseTime⟩]⟩, baseTime)
  obtain ⟨s, hRun, hState⟩ : ∃ s : Lds, Lds.Run (.initial 2 ⟨.pclPxyzi, false, .toRos⟩) s ∧
      ((s.contents 0).map StoragePacket.baseTime, s.consumer.publishes) = ([5], some 0) :=
    Reaches.of_observed ([.register 7, .sampling 0, .frame [entry 5]] ++ List.replicate 12 .produce ++
      List.replicate 6 .consume) _ (by decide +kernel)
  obtain ⟨hContents, hPublishes⟩ := Prod.mk.inj hState
  have hPolls : Lds.PollsAt 0 s.consumer := .inr (.inr (Consumer.eq_publish hPublishes))
  have hSome : s.contents 0 ≠ [] := fun hNil => by
    rw [hNil] at hContents
    cases hContents
  refine ⟨s, hRun, hContents, (unpublished_format_starves (.inl rfl) hRun .refl 0).1, fun s' hLater hExit => ?_⟩
  exact (unpublished_format_starves (.inl rfl) hRun hLater 0).2.2 hPolls hSome hExit

end RoveMapping.Livox
