import RoveMapping.Library.Interrupts
import RoveMapping.Tuner.Shutdown

/-! # Signals on the main thread

Bags that run on the main thread are interrupted there by the shutdown handler. `_PROCS_LOCK` is taken by
`_register_proc`, `_unregister_proc` and the handler itself, and is not reentrant.
-/
namespace RoveMapping.Tuner.TrialRunner
open Resumption
set_option autoImplicit false

/-- The operations inside `with _PROCS_LOCK`. -/
def underProcsLock : Op → Bool
  | .register _ | .unregister _ | .copyActive => true
  | _ => false

/-- The signals that `install_shutdown_handler` sets a handler for. -/
inductive Caught where
  | sigint
  | sigterm

def Caught.signal : Caught → Signal
  | .sigint => .sigint
  | .sigterm => .sigterm

/-- The frame at the bottom runs the bags; those above it are handlers. -/
def frameThread (depth : ℕ) : Thread := if depth = 0 then .worker 0 else .handler

def mainThread (parses : List Char → Bool) : OneThread runner World Env Caught Event Unit where
  sem depth := sem parses (frameThread depth)
  guarded := underProcsLock
  handler caught := emergencyShutdown (some caught.signal)
  env := onEvent

def ShuttingDown (w : World) : Prop := w.procs.shutdown = true

abbrev MainThread := Interrupted runner World Unit

def mainAt (w : World) (main : Program runner Unit) : MainThread := ⟨w, none, [main.underLock underProcsLock]⟩

section Handler

variable {parses : List Char → Bool}

theorem shuttingDown_of_effect {i : Thread} {op : Op} {env : Env} {w w' : World} {r : Except Exc op.Ans}
    (h : effect parses i op env w = some (r, w')) (hDown : ShuttingDown w) : ShuttingDown w' := by
  unfold ShuttingDown at hDown ⊢
  cases op with
  | register | unregister | setShutdown | copyActive | osExit =>
    cases h
    first | exact hDown | rfl
  | killpg p sig =>
    simp only [effect, Option.some.injEq] at h
    split at h
    · cases h
      split
      · exact hDown
      · exact hDown
    · cases h
      exact hDown
  | _ =>
    simp only [effect] at h
    grind [Procs.start]

theorem shuttingDown_of_event {event : Event} {w w' : World} (h : onEvent event w = some w') (hDown : ShuttingDown w) :
    ShuttingDown w' := by
  cases event <;> simp only [onEvent] at h <;> split at h <;> cases h <;> exact hDown

/-- While the flag is set, a handler only looks at it. -/
theorem harmless_handler (caught : Caught) :
    Harmless (mainThread parses) ShuttingDown (emergencyShutdown (some caught.signal)) := by
  refine ⟨rfl, fun depth env w answer w' hDown hSem => ?_⟩
  obtain ⟨-, hEffect⟩ := effect_of_sem hSem
  cases hEffect
  rw [hDown]
  trivial

theorem quietHandlers : QuietHandlers (mainThread parses) ShuttingDown where
  step _ _ _ _ _ _ hSem := shuttingDown_of_effect (effect_of_sem hSem).2
  env _ _ _ hEvent := shuttingDown_of_event hEvent
  handler := harmless_handler

end Handler

section Delivery

variable {parses : List Char → Bool}

/-- A handler that starts over the frame that holds the lock sets the flag and waits. -/
theorem deadlock_of_delivery {state : MainThread} {depth : ℕ} (hHolder : state.holder = some depth)
    (hDepth : depth < state.frames.length) (hRunning : state.shared.procs.exited = none) (hDown : ¬ShuttingDown state.shared)
    (caught : Caught) :
    ∃ state', Reaches (mainThread parses).next (fun _ _ => True) state state' ∧ state'.SelfDeadlock := by
  obtain ⟨w, holder, frames⟩ := state
  obtain rfl : holder = some depth := hHolder
  have hFlag : w.procs.shutdown = false := by simpa [ShuttingDown] using hDown
  have hSem : ∀ op, (mainThread parses).sem frames.length op obliging w = effect parses (frameThread frames.length) op obliging w := by
    intro op
    simp only [mainThread, sem, show w.procs.exited = none from hRunning]
    rfl
  have hDelivered : Reaches (mainThread parses).next (fun _ _ => True) ⟨w, some depth, frames⟩
      ⟨w, some depth, (emergencyShutdown (some caught.signal)).underLock (mainThread parses).guarded :: frames⟩ :=
    Reaches.mono (.single ⟨.deliver caught, trivial, rfl⟩) fun _ _ h => h
  have hAsked := OneThread.reaches_base hDelivered obliging trivial rfl ((hSem .isShutdown).trans (by rw [effect, hFlag]))
  have hSet := OneThread.reaches_base hAsked obliging trivial rfl (hSem .setShutdown)
  refine ⟨_, hSet, _, frames, rfl, ?_, depth, hDepth, rfl⟩
  exact congrArg Program.pending? (Program.underLock_guarded (show (mainThread parses).guarded .copyActive = true from rfl))

/-- A signal that comes while the interrupted frame holds `_PROCS_LOCK` is the only way to wait for oneself, and it
always leads there unless the flag is set. -/
theorem handler_never_waits (main : Program runner Unit) (w : World) :
    (∀ state, Reaches (mainThread parses).next (Masked ShuttingDown) (mainAt w main) state → ¬state.SelfDeadlock) ∧
    ∀ state caught, Reaches (mainThread parses).next (Masked ShuttingDown) (mainAt w main) state →
      state.shared.procs.exited = none → ¬Masked (χ := Env) (κ := Caught) (η := Event) ShuttingDown state (.deliver caught) →
        ∃ state', Reaches (mainThread parses).next (fun _ _ => True) state state' ∧ state'.SelfDeadlock := by
  constructor
  · intro state hRun
    exact OneThread.no_selfDeadlock quietHandlers hRun
  · intro state caught hRun hRunning hUnmasked
    obtain ⟨hHeld, hDown⟩ := not_or.mp hUnmasked
    obtain ⟨depth, hHolder⟩ := Option.ne_none_iff_exists'.mp hHeld
    have hBelow : depth < state.frames.length := (OneThread.orderly_of_reaches quietHandlers hRun).holder_lt hHolder
    exact deadlock_of_delivery hHolder hBelow hRunning hDown caught

end Delivery

/-! ## Ctrl-C while a launch is registered -/

/-- With the signals of `install_shutdown_handler` delivered anywhere. -/
def NeverWaitsForItself : Prop := ∀ parses w trial state,
  Reaches (mainThread parses).next (fun _ _ => True) (mainAt w (serve (.worker 0) (.inl trial))) state → ¬state.SelfDeadlock

theorem register_entered : ∃ w next, w.procs.exited = none ∧ w.procs.shutdown = false ∧
    Reaches (mainThread fun _ => true).next (Masked ShuttingDown) (mainAt World.blank (serve (.worker 0) (.inl hallway)))
      ⟨w, some 0, [@Program.inside runner Unit (.register 0) underProcsLock next]⟩ := by
  obtain ⟨params, rendered, hEffective, hRender⟩ := hallway_renders
  have hName (name : String) (h : name ≠ "hallway") := hallway_first.not_place h
  have hStart : Reaches (mainThread fun _ => true).next (Masked ShuttingDown)
      (mainAt World.blank (serve (.worker 0) (.inl hallway))) (mainAt World.blank (serve (.worker 0) (.inl hallway))) := .refl
  have w₁ := calm_blank.makeDir hallway_first.trail
  have h₁ := OneThread.reaches_base hStart obliging trivial rfl
    (sem_mkdir (fun _ => true) (.worker 0) calm_blank hallway_first.trail)
  rw [hEffective] at h₁
  have w₂ := w₁.put (hName "params.json" (by decide)) (.params params)
  have h₂ := OneThread.reaches_base h₁ obliging trivial rfl
    (sem_write (fun _ => true) (.worker 0) w₁ (hName "params.json" (by decide)))
  have w₃ := w₂.put (hName "env.json" (by decide)) (.env hallway.env)
  have h₃ := OneThread.reaches_base h₂ obliging trivial rfl
    (sem_write (fun _ => true) (.worker 0) w₂ (hName "env.json" (by decide)))
  have w₄ := w₃.makeDir hallway_first.child_trail
  have h₄ := OneThread.reaches_base h₃ obliging trivial rfl
    (sem_mkdir (fun _ => true) (.worker 0) w₃ hallway_first.child_trail)
  have w₅ := (w₄.makeDir hallway_first.child_trail).put (hallway_first.not_place_child "trial.launch.py") (.launch rendered)
  have h₅ := OneThread.reaches_base h₄ obliging trivial rfl
    (sem_render (fun _ => true) (.worker 0) w₄ hallway_first.child_trail (hallway_first.not_place_child _) hRender)
  have w₆ := w₅.put (hallway_first.not_place_child "launch.cmd")
  have h₆ := OneThread.reaches_base h₅ obliging trivial rfl
    (sem_write (fun _ => true) (.worker 0) w₅ (hallway_first.not_place_child _))
  have w₇ := fun content => (w₆ content).put (hallway_first.not_place_child "bag.cmd")
  have h₇ := OneThread.reaches_base h₆ obliging trivial rfl
    (sem_write (fun _ => true) (.worker 0) (w₆ _) (hallway_first.not_place_child _))
  have h₈ := OneThread.reaches_base h₇ obliging trivial rfl rfl
  have h₉ := OneThread.reaches_base h₈ obliging trivial rfl rfl
  have h₁₀ := OneThread.reaches_base h₉ obliging trivial rfl
    (sem_write (fun _ => true) (.worker 0) (w₇ _ _) (hallway_first.not_place_child "launch.log"))
  have h₁₁ := OneThread.reaches_base h₁₀ obliging trivial rfl rfl
  exact ⟨_, _, rfl, rfl, OneThread.reaches_acquire h₁₁ obliging trivial rfl⟩

theorem handler_never_waits_registering : ∃ state : MainThread,
    Reaches (mainThread fun _ => true).next (Masked ShuttingDown) (mainAt World.blank (serve (.worker 0) (.inl hallway))) state ∧
      ¬state.SelfDeadlock ∧
        ∃ state', Reaches (mainThread fun _ => true).next (fun _ _ => True) state state' ∧ state'.SelfDeadlock := by
  obtain ⟨w, next, hRunning, hFlag, hEntered⟩ := register_entered
  have hBoth := @handler_never_waits (fun _ => true) (serve (.worker 0) (.inl hallway)) World.blank
  refine ⟨_, hEntered, hBoth.1 _ hEntered, hBoth.2 _ .sigint hEntered hRunning ?_⟩
  simp [Masked, ShuttingDown, hFlag]

/-- SIGINT in the middle of `_register_proc`. -/
theorem neverWaitsForItself_registering : ¬NeverWaitsForItself := by
  intro hNever
  obtain ⟨w, next, hRunning, hFlag, hEntered⟩ := register_entered
  have hDown : ¬ShuttingDown w := by simp [ShuttingDown, hFlag]
  obtain ⟨state', hDelivered, hDeadlock⟩ := (deadlock_of_delivery rfl Nat.one_pos hRunning hDown .sigint :
    ∃ state', Reaches (mainThread fun _ => true).next (fun _ _ => True)
      ⟨w, some 0, [@Program.inside runner Unit (.register 0) underProcsLock next]⟩ state' ∧ state'.SelfDeadlock)
  exact hNever _ _ _ _ ((hEntered.mono fun _ _ _ => trivial).trans hDelivered) hDeadlock

end RoveMapping.Tuner.TrialRunner
