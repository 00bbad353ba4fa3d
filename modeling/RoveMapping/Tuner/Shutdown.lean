import RoveMapping.Tuner.FirstTrial
import RoveMapping.Tuner.ProcessGroups

/-! # Process groups at the moment of a forced exit

Any number of workers run trials while the signal handler copies the registry and kills what it
has copied. A group escapes only through two windows: started but not yet registered when the copy
is made, or started after it.
-/
namespace RoveMapping.Tuner.TrialRunner
open Resumption PosixPath
open Procs (Later)
set_option autoImplicit false

def serve : Thread → Trial ⊕ Signal → Program runner Unit
  | .worker _, .inl trial => do
    let _ ← runTrial trial
    return ()
  | .handler, .inr signum => emergencyShutdown (some signum)
  | _, _ => return ()

def optimizer (parses : List Char → Bool) : Machine runner Thread World Env (Trial ⊕ Signal) Event Unit :=
  ⟨sem parses, serve, onEvent⟩

abbrev Optimizer : Type := Pool runner Thread World Unit

structure Fresh (pool : Optimizer) : Prop where
  dead : ∀ p, pool.shared.procs.alive p = false
  active : pool.shared.procs.active = []
  exited : pool.shared.procs.exited = none
  registered : ∀ i, pool.shared.procs.unregistered i = none
  copied : pool.shared.procs.copied = false
  idle : ∀ i, (pool.thread i).outcome?.isSome

/-- Whatever the interleaving, no group outlives `os._exit`. -/
def NoOrphans : Prop := ∀ parses start pool, Fresh start →
  Reaches (optimizer parses).next (fun _ _ => True) start pool →
    pool.shared.procs.exited.isSome → ∀ p, pool.shared.procs.alive p = false

section Steps

variable {parses : List Char → Bool} {i : Thread} {F : Procs → Prop} {p : ProcId}

/-! ## A bag run -/

theorem playBag_triple (opts : Options) (dir : Path) (bagCmd : List String) (hF : Growing F) :
    Triple (sem parses) shutdownRules i (fun w => Idle i w.procs ∧ F w.procs) (playBag opts dir bagCmd)
      fun _ w => Idle i w.procs ∧ F w.procs := by
  refine settled_bind ((kept_idle i).and hF.kept) (by trivial) fun _ => ?_
  apply (popen_triple bagCmd dir hF).bind _ fun exc _ _ hw => ⟨hw.2, hw.1⟩
  intro bagProc
  have hBag : Growing fun ps => F ps ∧ Started bagProc ps := hF.started bagProc
  have hKept : Kept i fun ps => Idle i ps ∧ F ps ∧ Started bagProc ps := (kept_idle i).and hBag.kept
  have hStarted : ∀ ps, Idle i ps ∧ F ps ∧ Started bagProc ps → Started bagProc ps := fun ps h => h.2.2
  apply Triple.bind_returns ((register_triple bagProc hF).pre fun _ _ hw => ⟨hw.2, hw.1⟩)
  intro _
  have hFinish : ∀ timedOut, Triple (sem parses) shutdownRules i
      (fun w => (Idle i w.procs ∧ F w.procs ∧ Started bagProc w.procs) ∧ Dead bagProc w.procs)
      (do
        ask (.unregister bagProc)
        let returncode ← ask (.poll bagProc)
        return (⟨timedOut, returncode.getD 0⟩ : Playback))
      fun _ w => Idle i w.procs ∧ F w.procs := by
    intro timedOut
    apply (unregister_triple bagProc hBag).bind_returns
    intro _
    apply (poll_triple hKept hStarted).bind_returns
    intro returncode
    exact Triple.pure fun w _ hw => ⟨hw.1.1, hw.1.2.1⟩
  apply (wait_triple _ hKept hStarted).attempt.bind_returns
  rintro (exc | code)
  · rintro w hInv ⟨hw, rfl, _⟩
    exact (terminateProcessGroup_triple 10 hKept hStarted).bind_returns (fun _ => hFinish true) w hInv hw
  · exact hFinish false

def Supervised (i : Thread) (p : ProcId) (ps : Procs) : Prop := Idle i ps ∧ Started p ps

theorem growing_started (p : ProcId) : Growing (Started p) := fun _ _ hLe h => Nat.lt_of_lt_of_le h hLe

theorem kept_supervised (i : Thread) (p : ProcId) : Kept i (Supervised i p) := (kept_idle i).and (kept_started i p)

theorem supervised_started (ps : Procs) (h : Supervised i p ps) : Started p ps := h.2

theorem forget_triple {α : Type} {rest : Unit → Program runner α} {Q : Except Exc α → World → Prop}
    (hRest : Triple (sem parses) shutdownRules i (fun w => Supervised i p w.procs) (rest ()) Q) :
    Triple (sem parses) shutdownRules i (fun w => Supervised i p w.procs ∧ Dead p w.procs)
      (ask (.unregister p) >>= rest) Q :=
  (unregister_triple p (growing_started p)).bind_returns fun _ => hRest

theorem supervise_triple (opts : Options) (dir : Path) (bagPath : String) (bagCmd : List String) (start : ℚ) :
    Triple (sem parses) shutdownRules i (fun w => Holding i p w.procs) (supervise opts dir bagPath bagCmd start p)
      fun _ w => Supervised i p w.procs := by
  apply Triple.bind_returns ((register_triple p growing_true).pre fun _ _ hw => ⟨hw, trivial⟩)
  intro _
  refine Triple.pre (?_ : Triple _ _ _ (fun w => Supervised i p w.procs) _ _) fun w _ hw => ⟨hw.1, hw.2.2⟩
  refine settled_bind (kept_supervised i p) (by trivial) fun _ => ?_
  apply (poll_triple (kept_supervised i p) supervised_started).bind_returns
  rintro (_ | code)
  · apply Triple.bind (M := fun _ w => Supervised i p w.procs) _ _ fun _ _ _ hw => hw
    · exact (playBag_triple opts dir bagCmd (growing_started p)).pre fun _ _ hw => hw.1
    intro playback
    refine settled_bind (kept_supervised i p) (by trivial) fun _ => ?_
    apply (terminateProcessGroup_triple _ (kept_supervised i p) supervised_started).bind_returns
    intro _
    exact forget_triple (Triple.pure fun w _ hw => hw)
  · refine Triple.pre (?_ : Triple _ _ _ (fun w => Supervised i p w.procs ∧ Dead p w.procs) _ _)
      fun w _ hw => ⟨hw.1, hw.2 rfl⟩
    apply forget_triple
    exact settled_bind (kept_supervised i p) (by trivial) fun now => Triple.pure fun w _ hw => hw

theorem cleanUp_triple (opts : Options) :
    Triple (sem parses) shutdownRules i (fun w => Supervised i p w.procs) (cleanUp opts p)
      (Returns fun _ w => Supervised i p w.procs) := by
  apply (poll_triple (kept_supervised i p) supervised_started).bind_returns
  rintro (_ | code)
  · refine Triple.pre (?_ : Triple _ _ _ (fun w => Supervised i p w.procs) _ _) fun w _ hw => hw.1
    apply (terminateProcessGroup_triple opts.shutdownTimeoutS (kept_supervised i p) supervised_started).bind_returns
    intro _
    exact unregister_triple p (growing_started p)
  · exact Triple.pure fun w _ hw => hw.1

theorem launchAndPlay_triple (opts : Options) (dir : Path) (bagPath : String) (launchCmd bagCmd : List String) (start : ℚ) :
    Triple (sem parses) shutdownRules i (fun w => Idle i w.procs) (launchAndPlay opts dir bagPath launchCmd bagCmd start)
      fun _ w => Idle i w.procs := by
  refine settled_bind (kept_idle i) (by trivial) fun _ => ?_
  apply Triple.bind ((popen_triple launchCmd dir growing_true).pre fun _ _ hw => ⟨hw, trivial⟩) _
    fun _ _ _ hw => hw.2
  intro launchProc
  apply ((supervise_triple (p := launchProc) opts dir bagPath bagCmd start).attempt.pre fun _ _ hw => hw.2).bind_returns
  rintro (exc | result | playback)
  · apply (cleanUp_triple opts).bind_returns
    intro _
    exact Triple.throw fun w _ hw => hw.1
  · apply (cleanUp_triple opts).bind_returns
    intro _
    exact Triple.pure fun w _ hw => hw.1
  · exact Triple.pure fun w _ hw => hw.1

theorem settling_of_scoring (dir : Path) (op : Op) (h : op.Scoring dir) : op.Settling := by
  cases op <;> trivial

theorem runSingleBag_triple (bagPath : String) (overrides : List (String × Template.Override)) (dir : Path)
    (env : EnvConfig) (opts : Options) :
    Triple (sem parses) shutdownRules i (fun w => Idle i w.procs) (runSingleBag bagPath overrides dir env opts)
      fun _ w => Idle i w.procs := by
  refine settled_bind (kept_idle i) (by trivial) fun _ => ?_
  refine settled_bind (kept_idle i) (by trivial) fun _ => ?_
  refine settled_bind (kept_idle i) (by trivial) fun _ => ?_
  refine settled_bind (kept_idle i) (by trivial) fun _ => ?_
  split
  · exact Triple.pure fun w _ hw => hw
  refine settled_bind (kept_idle i) (by trivial) fun found => ?_
  split
  · refine settled_bind (kept_idle i) (by trivial) fun start => ?_
    apply (launchAndPlay_triple opts dir bagPath _ _ start).bind _ fun _ _ _ hw => hw
    rintro (result | playback)
    · exact Triple.pure fun w _ hw => hw
    · exact uses_triple ((judge_uses opts dir bagPath start playback).mono (settling_of_scoring dir)) (kept_idle i)
  · exact Triple.pure fun w _ hw => hw

theorem runBags_triple (dir : Path) (overrides : List (String × Template.Override)) (env : EnvConfig) (opts : Options)
    (bags : List (String × String)) :
    Triple (sem parses) shutdownRules i (fun w => Idle i w.procs) (runBags dir overrides env opts bags)
      fun _ w => Idle i w.procs := by
  induction bags with
  | nil => exact Triple.pure fun w _ hw => hw
  | cons bag rest ih =>
    obtain ⟨bag, name⟩ := bag
    apply (runSingleBag_triple bag overrides (dir.child name) env opts).bind _ fun _ _ _ hw => hw
    intro result
    refine settled_bind (kept_idle i) (by trivial) fun _ => ?_
    exact ih.bind (fun others => Triple.pure fun w _ hw => hw) fun _ _ _ hw => hw

theorem runTrial_triple (trial : Trial) :
    Triple (sem parses) shutdownRules i (fun w => Idle i w.procs) (runTrial trial) fun _ w => Idle i w.procs := by
  refine settled_bind (kept_idle i) (by trivial) fun _ => ?_
  have hParams : Triple (sem parses) shutdownRules i (fun w => Idle i w.procs) (effectiveParams trial.overrides)
      fun _ w => Idle i w.procs := by
    unfold effectiveParams
    split
    · exact Triple.pure fun w _ hw => hw
    · exact Triple.throw fun w _ hw => hw
  apply hParams.bind _ fun _ _ _ hw => hw
  intro params
  refine settled_bind (kept_idle i) (by trivial) fun _ => ?_
  refine settled_bind (kept_idle i) (by trivial) fun _ => ?_
  apply (runBags_triple trial.dir trial.overrides trial.env trial.opts _).bind _ fun _ _ _ hw => hw
  intro runs
  exact settled_bind (kept_idle i) (by trivial) fun _ => Triple.pure fun w _ hw => hw

/-! ## The handler -/

/-- The registry has been copied, and only these groups may still be alive. -/
def Left (procs : List ProcId) (ps : Procs) : Prop :=
  ps.copied = true ∧ (∀ p, ps.alive p = true → p ∈ procs) ∧ ∀ p ∈ procs, Started p ps

theorem kept_left (i : Thread) (procs : List ProcId) : Kept i (Left procs) := by
  rintro ps ps' hLater ⟨hCopied, hAlive, hStarted⟩
  obtain ⟨hCopied', hQuiet⟩ := hLater.quiet hCopied
  exact ⟨hCopied', fun p hp => hAlive p (hQuiet p hp), fun p hp => kept_started i p ps ps' hLater (hStarted p hp)⟩

theorem setShutdown_triple (hF : Kept i F) (hFlag : ∀ ps : Procs, F ps → F { ps with shutdown := true }) :
    Triple (sem parses) shutdownRules i (fun w => F w.procs) (ask .setShutdown) (Returns fun _ w => F w.procs) := by
  apply step_triple hF
  intro env w r w' hInv hw _ _ hEffect
  simp only [effect, Option.some.injEq] at hEffect
  cases hEffect
  exact ⟨⟨⟨hInv.started, hInv.listed, hInv.known, hInv.ended⟩, fun j _ => Later.same rfl rfl rfl id⟩, hFlag _ hw⟩

theorem copyActive_triple : Triple (sem parses) shutdownRules i (fun w => Idle i w.procs) (ask .copyActive)
    (Returns fun procs w => Idle i w.procs ∧ Left procs w.procs) := by
  apply step_triple (kept_idle i)
  intro env w r w' hInv hw hAllowed _ hEffect
  simp only [effect, Option.some.injEq] at hEffect
  cases hEffect
  refine ⟨⟨⟨hInv.started, hInv.listed, hInv.known, hInv.ended⟩, fun j _ => Later.same rfl rfl rfl fun _ => rfl⟩,
    hw, rfl, ?_, hInv.listed⟩
  intro p hp
  rcases hInv.known p hp with hActive | ⟨j, hj⟩
  · exact hActive
  · rw [hAllowed j] at hj
    cases hj

theorem killAll_triple (procs : List ProcId) :
    Triple (sem parses) shutdownRules i (fun w => Idle i w.procs ∧ Left procs w.procs) (killAll procs)
      (Returns fun _ w => Idle i w.procs ∧ Left [] w.procs) := by
  induction procs with
  | nil => exact Triple.pure fun w _ hw => hw
  | cons p rest ih =>
    have hKept : Kept i fun ps => Idle i ps ∧ Left (p :: rest) ps := (kept_idle i).and (kept_left i _)
    apply (killProcGroupEscalating_triple hKept fun ps h => h.2.2.2 p List.mem_cons_self).bind_returns
    intro _
    apply ih.consequence _ fun _ _ _ hw => hw
    rintro w _ ⟨⟨hIdle, hCopied, hAlive, hStarted⟩, hDead⟩
    refine ⟨hIdle, hCopied, fun q hq => ?_, fun q hq => hStarted q (List.mem_cons_of_mem p hq)⟩
    rcases List.mem_cons.mp (hAlive q hq) with rfl | hRest
    · rw [hDead.2] at hq
      cases hq
    · exact hRest

theorem osExit_triple (code : Int) :
    Triple (sem parses) shutdownRules i (fun w => Idle i w.procs ∧ Left [] w.procs) (ask (.osExit code))
      fun _ w => Idle i w.procs := by
  apply step_triple ((kept_idle i).and (kept_left i []))
  rintro env w r w' hInv ⟨hIdle, _, hAlive, _⟩ _ _ hEffect
  simp only [effect, Option.some.injEq] at hEffect
  cases hEffect
  have hEnded : ∀ p, w.procs.alive p = false := by
    intro p
    by_contra hp
    exact List.not_mem_nil (hAlive p (by simpa using hp))
  exact ⟨⟨⟨hInv.started, hInv.listed, hInv.known, fun _ => hEnded⟩, fun j _ => Later.same rfl rfl rfl id⟩, hIdle⟩

theorem emergencyShutdown_triple (signum : Option Signal) :
    Triple (sem parses) shutdownRules i (fun w => Idle i w.procs) (emergencyShutdown signum)
      fun _ w => Idle i w.procs := by
  refine settled_bind (kept_idle i) (by trivial) fun already => ?_
  split
  · exact Triple.pure fun w _ hw => hw
  apply (setShutdown_triple (kept_idle i) fun _ h => h).bind_returns
  intro _
  apply copyActive_triple.bind_returns
  intro procs
  apply (killAll_triple procs).bind_returns
  intro _
  cases signum with
  | none => exact Triple.pure fun w _ hw => hw.1
  | some sig => exact osExit_triple _

theorem serve_triple (call : Trial ⊕ Signal) :
    Triple (sem parses) shutdownRules i (fun w => Idle i w.procs) (serve i call) fun _ w => Idle i w.procs := by
  unfold serve
  split
  · exact (runTrial_triple _).bind (fun _ => Triple.pure fun w _ hw => hw) fun _ _ _ hw => hw
  · exact emergencyShutdown_triple _
  · exact Triple.pure fun w _ hw => hw

end Steps

theorem shutdown_proof (parses : List Char → Bool) :
    (optimizer parses).Proof shutdownRules (StepsOk Undisturbed) fun i _ w => Idle i w.procs where
  stable i _ := (kept_idle i).stable
  allowed _ _ _ _ _ hOk hOp := hOk.allowed hOp
  start pool i call r _ _ hInv hw := serve_triple call pool.shared hInv hw
  env pool event w _ hInv hEvent := by
    cases event <;> simp only [optimizer, onEvent] at hEvent <;> split at hEvent <;> cases hEvent
    · exact ⟨hInv.kill _ _, fun i => Later.kill i _ _ _⟩
    · exact ⟨hInv, fun i => Later.refl i _⟩
    · exact ⟨hInv, fun i => Later.refl i _⟩

def atRest : Optimizer := ⟨World.blank, fun _ => .pure ()⟩

theorem atRest_fresh : Fresh atRest := ⟨fun _ => rfl, rfl, rfl, fun _ => rfl, rfl, fun _ => rfl⟩

def hallway : Trial :=
  ⟨"trial_0", [], ["hallway"], {}, { outputRoot := dataRoot }⟩

theorem hallway_first : hallway.First := ⟨rfl, rfl, rfl⟩

theorem hallway_renders : ∃ params rendered, effectiveParams hallway.overrides = pure params ∧
    Template.render (fun _ => true) hallway.overrides Template.launchText = .ok rendered := by
  obtain ⟨params, rendered, hParams, hRender⟩ := Template.render_of_known fun _ h => (List.not_mem_nil h).elim
  refine ⟨params, rendered, ?_, hRender⟩
  rw [effectiveParams, show hallway.overrides = [] from rfl, hParams]

theorem launch_started : ∃ place dirs entries next,
    Reaches (optimizer fun _ => true).next (StepsOk Undisturbed) atRest
      ⟨⟨dirs, entries, fun _ => true, atRest.shared.procs.start (.worker 0) place, none⟩,
        Function.update atRest.thread (.worker 0) (.request (.register 0) next)⟩ := by
  obtain ⟨params, rendered, hEffective, hRender⟩ := hallway_renders
  have hName (name : String) (h : name ≠ "hallway") := hallway_first.not_place h
  have hStart : Reaches (optimizer fun _ => true).next (StepsOk Undisturbed) atRest
      ⟨_, Function.update atRest.thread (.worker 0) (serve (.worker 0) (.inl hallway))⟩ :=
    Reaches.start (M := optimizer fun _ => true) .refl (.worker 0) (.inl hallway) rfl trivial
  have w₁ := calm_blank.makeDir hallway_first.trail
  have h₁ := hStart.stepOk obliging trivial (sem_mkdir (fun _ => true) (.worker 0) calm_blank hallway_first.trail)
  rw [hEffective] at h₁
  have w₂ := w₁.put (hName "params.json" (by decide)) (.params params)
  have h₂ := h₁.stepOk obliging trivial (sem_write (fun _ => true) (.worker 0) w₁ (hName "params.json" (by decide)))
  have w₃ := w₂.put (hName "env.json" (by decide)) (.env hallway.env)
  have h₃ := h₂.stepOk obliging trivial (sem_write (fun _ => true) (.worker 0) w₂ (hName "env.json" (by decide)))
  have w₄ := w₃.makeDir hallway_first.child_trail
  have h₄ := h₃.stepOk obliging trivial (sem_mkdir (fun _ => true) (.worker 0) w₃ hallway_first.child_trail)
  have w₅ := (w₄.makeDir hallway_first.child_trail).put (hallway_first.not_place_child "trial.launch.py") (.launch rendered)
  have h₅ := h₄.stepOk obliging trivial (sem_render (fun _ => true) (.worker 0) w₄ hallway_first.child_trail
    (hallway_first.not_place_child _) hRender)
  have w₆ := w₅.put (hallway_first.not_place_child "launch.cmd")
  have h₆ := h₅.stepOk obliging trivial (sem_write (fun _ => true) (.worker 0) w₅ (hallway_first.not_place_child _))
  have w₇ := fun content => (w₆ content).put (hallway_first.not_place_child "bag.cmd")
  have h₇ := h₆.stepOk obliging trivial (sem_write (fun _ => true) (.worker 0) (w₆ _) (hallway_first.not_place_child _))
  have h₈ := h₇.stepOk obliging trivial rfl
  have h₉ := h₈.stepOk obliging trivial rfl
  have h₁₀ := h₉.stepOk obliging trivial
    (sem_write (fun _ => true) (.worker 0) (w₇ _ _) (hallway_first.not_place_child "launch.log"))
  have h₁₁ := h₁₀.stepOk obliging rfl rfl
  exact ⟨_, _, _, _, h₁₁⟩

end RoveMapping.Tuner.TrialRunner
