import Mathlib.Data.List.Basic
import RoveMapping.Library.Machine

/-! # Handlers on the thread that they interrupt

The frames of one thread form a stack. A signal puts its handler on top of whatever runs, and the frame
beneath goes on when the handler has ended. Some operations are done under a lock that is not reentrant.
-/
namespace Resumption
set_option autoImplicit false

inductive LockOp (O : Type) where
  | base (op : O)
  | acquire
  | release

@[reducible] def LockOp.Ans (S : Signature) : LockOp S.Op → Type
  | .base op => S.Ans op
  | .acquire | .release => Unit

abbrev Locked (S : Signature) : Signature := ⟨LockOp S.Op, LockOp.Ans S, S.Exc⟩

variable {S : Signature} {σ χ κ η α : Type}

namespace Program

/-- `with lock:` around each guarded operation. -/
def underLock (guarded : S.Op → Bool) : Program S α → Program (Locked S) α
  | .pure value => .pure value
  | .throw exc => .throw exc
  | .request op next =>
    if guarded op then
      @Program.request (Locked S) α .acquire fun entered =>
        match entered with
        | .error exc => (next (.error exc)).underLock guarded
        | .ok _ => @Program.request (Locked S) α (.base op) fun answer =>
          @Program.request (Locked S) α .release fun left =>
            match left with
            | .error exc => (next (.error exc)).underLock guarded
            | .ok _ => (next answer).underLock guarded
    else @Program.request (Locked S) α (.base op) fun answer => (next answer).underLock guarded

variable {guarded : S.Op → Bool} {op : S.Op}

/-- The end of a critical section, when the operation has been answered. -/
def leaving (guarded : S.Op → Bool) (next : Except S.Exc (S.Ans op) → Program S α) (answer : Except S.Exc (S.Ans op)) :
    Program (Locked S) α :=
  @Program.request (Locked S) α .release fun left =>
    match left with
    | .error exc => (next (.error exc)).underLock guarded
    | .ok _ => (next answer).underLock guarded

def inside (guarded : S.Op → Bool) (next : Except S.Exc (S.Ans op) → Program S α) : Program (Locked S) α :=
  @Program.request (Locked S) α (.base op) (leaving guarded next)

theorem underLock_guarded {next : Except S.Exc (S.Ans op) → Program S α} (h : guarded op = true) :
    (Program.request op next).underLock guarded = @Program.request (Locked S) α .acquire fun entered =>
      match entered with
      | .error exc => (next (.error exc)).underLock guarded
      | .ok _ => inside guarded next := by
  rw [underLock, if_pos h]
  rfl

theorem underLock_base {next : Except S.Exc (S.Ans op) → Program S α} (h : guarded op = false) :
    (Program.request op next).underLock guarded =
      @Program.request (Locked S) α (.base op) fun answer => (next answer).underLock guarded := by
  rw [underLock, if_neg (by simp [h])]

end Program

/-- The shared state, the depth of the frame that holds the lock, and the frames with the innermost first. -/
structure Interrupted (S : Signature) (σ α : Type) where
  shared : σ
  holder : Option ℕ
  frames : List (Program (Locked S) α)

inductive Happening (χ κ η : Type) where
  | step (choice : χ)
  | finish
  | deliver (signal : κ)
  | env (event : η)

structure OneThread (S : Signature) (σ χ κ η α : Type) where
  sem : Semantics S ℕ σ χ
  guarded : S.Op → Bool
  handler : κ → Program S α
  env : η → σ → Option σ

/-- The frame beneath one that has ended; an exception is raised where it was interrupted. -/
def resume : Program S α → Except S.Exc α → Program S α
  | p, .ok _ => p
  | .request _ next, .error exc => next (.error exc)
  | _, .error exc => .throw exc

namespace OneThread

variable (M : OneThread S σ χ κ η α)

/-- One operation of the innermost frame at a depth; the lock blocks whoever asks for it while it is held. -/
def lockSem (depth : ℕ) (op : LockOp S.Op) (choice : χ) (shared : σ) (holder : Option ℕ) :
    Option (Except S.Exc (LockOp.Ans S op) × σ × Option ℕ) :=
  match op with
  | .base op => (M.sem depth op choice shared).map fun (answer, next) => (answer, next, holder)
  | .acquire => if holder = none then some (.ok (), shared, some depth) else none
  | .release => some (.ok (), shared, none)

def next (state : Interrupted S σ α) : Happening χ κ η → Option (Interrupted S σ α)
  | .step choice =>
    match state.frames with
    | .request op after :: below => (M.lockSem below.length op choice state.shared state.holder).map
        fun (answer, shared, holder) => ⟨shared, holder, after answer :: below⟩
    | _ => none
  | .finish =>
    match state.frames with
    | top :: beneath :: below => top.outcome?.map fun r => ⟨state.shared, state.holder, resume beneath r :: below⟩
    | _ => none
  | .deliver signal => some { state with frames := (M.handler signal).underLock M.guarded :: state.frames }
  | .env event => (M.env event state.shared).map fun shared => { state with shared := shared }

end OneThread

/-- The innermost frame waits for the lock, and a frame that it interrupted holds it. -/
def Interrupted.SelfDeadlock (state : Interrupted S σ α) : Prop :=
  ∃ top below, state.frames = top :: below ∧ top.pending? = some .acquire ∧ ∃ depth < below.length, state.holder = some depth

section Discipline

variable (M : OneThread S σ χ κ η α) (Quiet : σ → Prop)

def Outside (p : Program (Locked S) α) : Prop := ∃ q : Program S α, p = q.underLock M.guarded

def Critical (p : Program (Locked S) α) : Prop :=
  ∃ (op : S.Op) (next : Except S.Exc (S.Ans op) → Program S α), p = .inside M.guarded next ∨ ∃ answer, p = .leaving M.guarded next answer

/-- From a quiet state the program ends without the lock and without an exception. -/
def Harmless : Program S α → Prop
  | .pure _ => True
  | .throw _ => False
  | .request op next => M.guarded op = false ∧ ∀ depth choice s answer t, Quiet s → M.sem depth op choice s = some (answer, t) →
      Harmless (next answer)

/-- What the handlers owe: quiet stays so, and in a quiet state they are harmless. -/
structure QuietHandlers : Prop where
  step : ∀ depth op choice s answer t, M.sem depth op choice s = some (answer, t) → Quiet s → Quiet t
  env : ∀ event s t, M.env event s = some t → Quiet s → Quiet t
  handler : ∀ signal, Harmless M Quiet (M.handler signal)

/-- Only harmless handlers run on top of the frame that holds the lock. -/
inductive Orderly : Interrupted S σ α → Prop where
  | free {shared : σ} {frames : List (Program (Locked S) α)} (hFrames : ∀ p ∈ frames, Outside M p) :
      Orderly ⟨shared, none, frames⟩
  | held {shared : σ} {above below : List (Program (Locked S) α)} {p : Program (Locked S) α} (hCritical : Critical M p)
      (hBelow : ∀ q ∈ below, Outside M q) (hAbove : ∀ q ∈ above, ∃ r, q = Program.underLock M.guarded r ∧ Harmless M Quiet r)
      (hQuiet : above ≠ [] → Quiet shared) : Orderly ⟨shared, some below.length, above ++ p :: below⟩

/-- Signals come only while the lock is free, or in a quiet state. -/
def Masked (state : Interrupted S σ α) : Happening χ κ η → Prop
  | .deliver _ => state.holder = none ∨ Quiet state.shared
  | _ => True

variable {M Quiet}

theorem outside_resume {p : Program (Locked S) α} (h : Outside M p) (r : Except S.Exc α) :
    Outside M (@resume (Locked S) α p r) := by
  obtain ⟨q, rfl⟩ := h
  cases r with
  | ok value => exact ⟨q, by cases hq : q.underLock M.guarded <;> rfl⟩
  | error exc =>
    cases q with
    | pure value => exact ⟨.throw exc, rfl⟩
    | throw exc' => exact ⟨.throw exc, rfl⟩
    | request op next =>
      refine ⟨next (.error exc), ?_⟩
      cases hGuarded : M.guarded op with
      | true =>
        rw [Program.underLock_guarded hGuarded]
        rfl
      | false =>
        rw [Program.underLock_base hGuarded]
        rfl

theorem OneThread.next_step {state state' : Interrupted S σ α} {choice : χ} (h : M.next state (.step choice) = some state') :
    ∃ (op : LockOp S.Op) (after : Except S.Exc (LockOp.Ans S op) → Program (Locked S) α) (below : List (Program (Locked S) α))
      (answer : Except S.Exc (LockOp.Ans S op)) (shared : σ) (holder : Option ℕ),
      state.frames = @Program.request (Locked S) α op after :: below ∧
      M.lockSem below.length op choice state.shared state.holder = some (answer, shared, holder) ∧
      state' = ⟨shared, holder, after answer :: below⟩ := by
  simp only [OneThread.next] at h
  split at h
  · rename_i op after below hFrames
    obtain ⟨⟨answer, shared, holder⟩, hSem, rfl⟩ := Option.map_eq_some_iff.mp h
    exact ⟨op, after, below, answer, shared, holder, hFrames, hSem, rfl⟩
  · cases h

theorem Orderly.entered {shared : σ} {p : Program (Locked S) α} {below : List (Program (Locked S) α)} (hCritical : Critical M p)
    (hBelow : ∀ q ∈ below, Outside M q) : Orderly M Quiet ⟨shared, some below.length, p :: below⟩ := by
  have hNone : ∀ q ∈ ([] : List (Program (Locked S) α)), ∃ r, q = Program.underLock M.guarded r ∧ Harmless M Quiet r := nofun
  exact Orderly.held hCritical hBelow hNone fun h => absurd rfl h

theorem orderly_of_free {shared : σ} {top : Program (Locked S) α} {below : List (Program (Locked S) α)} {state' : Interrupted S σ α}
    {choice : χ} (hTop : Outside M top) (hBelow : ∀ q ∈ below, Outside M q)
    (h : M.next ⟨shared, none, top :: below⟩ (.step choice) = some state') : Orderly M Quiet state' := by
  obtain ⟨op, after, _, answer, shared', holder, hFrames, hSem, rfl⟩ := M.next_step h
  cases hFrames
  obtain ⟨q, hq⟩ := hTop
  cases q with
  | pure value => cases hq
  | throw exc => cases hq
  | request op next =>
    cases hGuarded : M.guarded op with
    | true =>
      rw [Program.underLock_guarded hGuarded] at hq
      cases hq
      cases hSem
      exact .entered ⟨op, next, .inl rfl⟩ hBelow
    | false =>
      rw [Program.underLock_base hGuarded] at hq
      cases hq
      obtain ⟨⟨_, _⟩, _, hSame⟩ := Option.map_eq_some_iff.mp hSem
      cases hSame
      exact .free (List.forall_mem_cons.mpr ⟨⟨_, rfl⟩, hBelow⟩)

theorem orderly_of_critical {shared : σ} {top : Program (Locked S) α} {below : List (Program (Locked S) α)}
    {state' : Interrupted S σ α} {choice : χ} (hTop : Critical M top) (hBelow : ∀ q ∈ below, Outside M q)
    (h : M.next ⟨shared, some below.length, top :: below⟩ (.step choice) = some state') : Orderly M Quiet state' := by
  obtain ⟨op, after, _, answer, shared', holder, hFrames, hSem, rfl⟩ := M.next_step h
  cases hFrames
  obtain ⟨op, next, hInside | ⟨found, hLeaving⟩⟩ := hTop
  · cases hInside
    obtain ⟨⟨_, _⟩, _, hSame⟩ := Option.map_eq_some_iff.mp hSem
    cases hSame
    exact .entered ⟨op, next, .inr ⟨_, rfl⟩⟩ hBelow
  · cases hLeaving
    cases hSem
    exact .free (List.forall_mem_cons.mpr ⟨⟨next found, rfl⟩, hBelow⟩)

theorem orderly_of_harmless (hHandlers : QuietHandlers M Quiet) {shared : σ} {top p : Program (Locked S) α}
    {above below : List (Program (Locked S) α)} {state' : Interrupted S σ α} {choice : χ}
    (hTop : ∃ r, top = Program.underLock M.guarded r ∧ Harmless M Quiet r)
    (hAbove : ∀ q ∈ above, ∃ r, q = Program.underLock M.guarded r ∧ Harmless M Quiet r) (hCritical : Critical M p)
    (hBelow : ∀ q ∈ below, Outside M q) (hQuiet : Quiet shared)
    (h : M.next ⟨shared, some below.length, top :: (above ++ p :: below)⟩ (.step choice) = some state') :
    Orderly M Quiet state' := by
  obtain ⟨op, after, _, answer, shared', holder, hFrames, hSem, rfl⟩ := M.next_step h
  cases hFrames
  obtain ⟨r, hr, hHarmless⟩ := hTop
  cases r with
  | pure value => cases hr
  | throw exc => cases hr
  | request op next =>
    obtain ⟨hGuarded, hNext⟩ := hHarmless
    rw [Program.underLock_base hGuarded] at hr
    cases hr
    obtain ⟨⟨found, after⟩, hBase, hSame⟩ := Option.map_eq_some_iff.mp hSem
    cases hSame
    have hHead : ∃ r, (next answer).underLock M.guarded = Program.underLock M.guarded r ∧ Harmless M Quiet r :=
      ⟨_, rfl, hNext _ _ _ _ _ hQuiet hBase⟩
    have hAll : ∀ q ∈ (next answer).underLock M.guarded :: above, ∃ r, q = Program.underLock M.guarded r ∧ Harmless M Quiet r :=
      List.forall_mem_cons.mpr ⟨hHead, hAbove⟩
    have hHeld := Orderly.held hCritical hBelow hAll fun _ => hHandlers.step _ _ _ _ _ _ hBase hQuiet
    exact hHeld

theorem outcome_of_harmless {r : Program S α} (hHarmless : Harmless M Quiet r) {outcome : Except S.Exc α}
    (h : (r.underLock M.guarded).outcome? = some outcome) : ∃ value, outcome = .ok value := by
  cases r with
  | pure value =>
    cases h
    exact ⟨value, rfl⟩
  | throw exc => exact hHarmless.elim
  | request op next =>
    rw [Program.underLock_base hHarmless.1] at h
    cases h

theorem Critical.unfinished {p : Program (Locked S) α} (h : Critical M p) : p.outcome? = none := by
  obtain ⟨op, next, rfl | ⟨answer, rfl⟩⟩ := h
  · rfl
  · rfl

theorem orderly_finish {state state' : Interrupted S σ α} (hOrderly : Orderly M Quiet state)
    (h : M.next state .finish = some state') : Orderly M Quiet state' := by
  cases hOrderly with
  | @free shared frames hFrames =>
    cases frames with
    | nil => cases h
    | cons top below =>
      cases below with
      | nil => cases h
      | cons beneath below =>
        obtain ⟨r, -, rfl⟩ := Option.map_eq_some_iff.mp h
        rw [List.forall_mem_cons, List.forall_mem_cons] at hFrames
        exact .free (List.forall_mem_cons.mpr ⟨outside_resume hFrames.2.1 r, hFrames.2.2⟩)
  | @held shared above below p hCritical hBelow hAbove hQuiet =>
    cases above with
    | nil =>
      -- the frame that holds the lock has not ended
      cases below with
      | nil => cases h
      | cons beneath below =>
        obtain ⟨r, hEnd, -⟩ := Option.map_eq_some_iff.mp h
        rw [hCritical.unfinished] at hEnd
        cases hEnd
    | cons top above =>
      rw [List.forall_mem_cons] at hAbove
      obtain ⟨⟨r, rfl, hHarmless⟩, hAbove⟩ := hAbove
      have hKept : ∀ outcome (q : Program (Locked S) α), (r.underLock M.guarded).outcome? = some outcome →
          @resume (Locked S) α q outcome = q := by
        intro outcome q hEnd
        obtain ⟨value, rfl⟩ := outcome_of_harmless hHarmless hEnd
        cases q <;> rfl
      cases above with
      | nil =>
        obtain ⟨outcome, hEnd, rfl⟩ := Option.map_eq_some_iff.mp h
        rw [hKept outcome p hEnd]
        exact .entered hCritical hBelow
      | cons beneath above =>
        obtain ⟨outcome, hEnd, rfl⟩ := Option.map_eq_some_iff.mp h
        rw [hKept outcome beneath hEnd]
        have hHeld := Orderly.held hCritical hBelow hAbove fun _ => hQuiet (List.cons_ne_nil _ _)
        exact hHeld

theorem orderly_deliver (hHandlers : QuietHandlers M Quiet) {state state' : Interrupted S σ α} (hOrderly : Orderly M Quiet state)
    {signal : κ} (hMasked : state.holder = none ∨ Quiet state.shared) (h : M.next state (.deliver signal) = some state') :
    Orderly M Quiet state' := by
  cases h
  cases hOrderly with
  | free hFrames => exact .free (List.forall_mem_cons.mpr ⟨⟨_, rfl⟩, hFrames⟩)
  | held hCritical hBelow hAbove hQuiet =>
    have hNow := hMasked.resolve_left nofun
    have hAll := List.forall_mem_cons.mpr ⟨⟨M.handler signal, rfl, hHandlers.handler signal⟩, hAbove⟩
    have hHeld := Orderly.held hCritical hBelow hAll fun _ => hNow
    exact hHeld

theorem Orderly.next (hHandlers : QuietHandlers M Quiet) {state state' : Interrupted S σ α} (hOrderly : Orderly M Quiet state)
    {happening : Happening χ κ η} (hMasked : Masked Quiet state happening) (h : M.next state happening = some state') :
    Orderly M Quiet state' := by
  cases happening with
  | step choice =>
    cases hOrderly with
    | @free shared frames hFrames =>
      cases frames with
      | nil => cases h
      | cons top below =>
        rw [List.forall_mem_cons] at hFrames
        exact orderly_of_free hFrames.1 hFrames.2 h
    | @held shared above below p hCritical hBelow hAbove hQuiet =>
      cases above with
      | nil => exact orderly_of_critical hCritical hBelow h
      | cons top above =>
        rw [List.forall_mem_cons] at hAbove
        exact orderly_of_harmless hHandlers hAbove.1 hAbove.2 hCritical hBelow (hQuiet (List.cons_ne_nil _ _)) h
  | finish => exact orderly_finish hOrderly h
  | deliver signal => exact orderly_deliver hHandlers hOrderly hMasked h
  | env event =>
    obtain ⟨shared, hEnv, rfl⟩ := Option.map_eq_some_iff.mp h
    cases hOrderly with
    | free hFrames => exact .free hFrames
    | held hCritical hBelow hAbove hQuiet =>
      exact .held hCritical hBelow hAbove fun hAny => hHandlers.env event _ _ hEnv (hQuiet hAny)

theorem Orderly.holder_lt {state : Interrupted S σ α} (hOrderly : Orderly M Quiet state) {depth : ℕ}
    (hHolder : state.holder = some depth) : depth < state.frames.length := by
  cases hOrderly with
  | free hAll => cases hHolder
  | held hCritical hBelow hAbove hQuiet =>
    cases hHolder
    simp only [List.length_append, List.length_cons]
    omega

theorem Orderly.not_selfDeadlock {state : Interrupted S σ α} (hOrderly : Orderly M Quiet state) : ¬state.SelfDeadlock := by
  rintro ⟨top, rest, hFrames, hPending, depth, hDepth, hHolder⟩
  cases hOrderly with
  | free hAll => cases hHolder
  | @held shared above below p hCritical hBelow hAbove hQuiet =>
    cases above with
    | nil =>
      cases hFrames
      obtain ⟨op, next, rfl | ⟨answer, rfl⟩⟩ := hCritical
      · cases hPending
      · cases hPending
    | cons first above =>
      cases hFrames
      obtain ⟨r, rfl, hHarmless⟩ := hAbove top (.head _)
      cases r with
      | pure value => cases hPending
      | throw exc => cases hPending
      | request op next =>
        rw [Program.underLock_base hHarmless.1] at hPending
        cases hPending

theorem OneThread.orderly_of_reaches (hHandlers : QuietHandlers M Quiet) {shared : σ} {main : Program S α} {state : Interrupted S σ α}
    (hRun : Reaches M.next (Masked Quiet) ⟨shared, none, [main.underLock M.guarded]⟩ state) : Orderly M Quiet state := by
  induction hRun with
  | refl => exact .free (List.forall_mem_singleton.mpr ⟨main, rfl⟩)
  | tail _ hStep ih =>
    obtain ⟨happening, hMasked, hNext⟩ := hStep
    exact ih.next hHandlers hMasked hNext

/-- While signals are masked in this way, no handler waits for the frame that it interrupted. -/
theorem OneThread.no_selfDeadlock (hHandlers : QuietHandlers M Quiet) {shared : σ} {main : Program S α} {state : Interrupted S σ α}
    (hRun : Reaches M.next (Masked Quiet) ⟨shared, none, [main.underLock M.guarded]⟩ state) : ¬state.SelfDeadlock :=
  (orderly_of_reaches hHandlers hRun).not_selfDeadlock

theorem OneThread.reaches_base {ok : Interrupted S σ α → Happening χ κ η → Prop} {start : Interrupted S σ α} {shared shared' : σ}
    {holder : Option ℕ} {below : List (Program (Locked S) α)} {op : S.Op} {next : Except S.Exc (S.Ans op) → Program S α}
    {answer : Except S.Exc (S.Ans op)}
    (h : Reaches M.next ok start ⟨shared, holder, (Program.request op next).underLock M.guarded :: below⟩)
    (choice : χ) (hOk : ok ⟨shared, holder, (Program.request op next).underLock M.guarded :: below⟩ (.step choice))
    (hBase : M.guarded op = false) (hSem : M.sem below.length op choice shared = some (answer, shared')) :
    Reaches M.next ok start ⟨shared', holder, (next answer).underLock M.guarded :: below⟩ := by
  refine h.tail ⟨.step choice, hOk, ?_⟩
  rw [Program.underLock_base hBase]
  simp only [OneThread.next, OneThread.lockSem, hSem, Option.map_some]

theorem OneThread.reaches_acquire {ok : Interrupted S σ α → Happening χ κ η → Prop} {start : Interrupted S σ α} {shared : σ}
    {below : List (Program (Locked S) α)} {op : S.Op} {next : Except S.Exc (S.Ans op) → Program S α}
    (h : Reaches M.next ok start ⟨shared, none, (Program.request op next).underLock M.guarded :: below⟩)
    (choice : χ) (hOk : ok ⟨shared, none, (Program.request op next).underLock M.guarded :: below⟩ (.step choice))
    (hGuarded : M.guarded op = true) :
    Reaches M.next ok start ⟨shared, some below.length, Program.inside M.guarded next :: below⟩ := by
  refine h.tail ⟨.step choice, hOk, ?_⟩
  rw [Program.underLock_guarded hGuarded]
  rfl

end Discipline

end Resumption
