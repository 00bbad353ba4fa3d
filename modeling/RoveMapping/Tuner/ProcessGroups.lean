import RoveMapping.Tuner.BagRun

/-! # Process groups and their registry

What the operations of one thread do to the process groups, while the others start, register and end
theirs. A thread knows its own launch, and that what has ended stays so.
-/
namespace RoveMapping.Tuner.TrialRunner
open Resumption PosixPath
set_option autoImplicit false

/-- When the registry is copied no thread is between starting a group and registering it, and no
group is started afterwards. -/
def Undisturbed (_ : Thread) (op : runner.Op) (_ : Env) (w : World) : Prop :=
  match op with
  | .copyActive => ∀ i, w.procs.unregistered i = none
  | .popen _ _ => w.procs.copied = false
  | _ => True

namespace Procs

structure Inv (ps : Procs) : Prop where
  started : ∀ p, ps.alive p = true → p < ps.spawned
  listed : ∀ p ∈ ps.active, p < ps.spawned
  known : ∀ p, ps.alive p = true → p ∈ ps.active ∨ ∃ i, ps.unregistered i = some p
  ended : ps.exited.isSome → ∀ p, ps.alive p = false

/-- What thread `i` may see the others do: groups that have ended stay so, and once the registry
has been copied no more are started. -/
structure Later (i : Thread) (ps ps' : Procs) : Prop where
  spawned : ps.spawned ≤ ps'.spawned
  alive : ∀ p < ps.spawned, ps'.alive p = true → ps.alive p = true
  unregistered : ps'.unregistered i = ps.unregistered i
  quiet : ps.copied = true → ps'.copied = true ∧ ∀ p, ps'.alive p = true → ps.alive p = true

theorem Later.same {i : Thread} {ps ps' : Procs} (hSpawned : ps'.spawned = ps.spawned) (hAlive : ps'.alive = ps.alive)
    (hUnregistered : ps'.unregistered i = ps.unregistered i) (hCopied : ps.copied = true → ps'.copied = true) :
    Later i ps ps' where
  spawned := hSpawned.ge
  alive p _ hp := by rwa [hAlive] at hp
  unregistered := hUnregistered
  quiet h := ⟨hCopied h, fun p hp => by rwa [hAlive] at hp⟩

theorem Later.refl (i : Thread) (ps : Procs) : Later i ps ps := .same rfl rfl rfl id

theorem Later.trans {i : Thread} {ps qs rs : Procs} (h : Later i ps qs) (h' : Later i qs rs) : Later i ps rs where
  spawned := h.spawned.trans h'.spawned
  alive p hp hAlive := h.alive p hp (h'.alive p (hp.trans_le h.spawned) hAlive)
  unregistered := h'.unregistered.trans h.unregistered
  quiet hCopied :=
    have hFirst := h.quiet hCopied
    have hSecond := h'.quiet hFirst.1
    ⟨hSecond.1, fun p hAlive => hFirst.2 p (hSecond.2 p hAlive)⟩

theorem alive_of_kill {ps : Procs} {p q : ProcId} {code : Int} (h : (ps.kill q code).alive p = true) :
    ps.alive p = true := by
  by_cases hEq : p = q
  · subst hEq
    simp [kill] at h
  · simpa [kill, Function.update_of_ne hEq] using h

theorem Inv.kill {ps : Procs} (h : ps.Inv) (q : ProcId) (code : Int) : (ps.kill q code).Inv where
  started p hp := h.started p (alive_of_kill hp)
  listed := h.listed
  known p hp := h.known p (alive_of_kill hp)
  ended hExited p := by
    by_contra hp
    exact absurd (alive_of_kill (by simpa using hp)) (by simp [h.ended hExited p])

theorem Later.kill (j : Thread) (ps : Procs) (q : ProcId) (code : Int) : Later j ps (ps.kill q code) :=
  ⟨Nat.le_refl _, fun _ _ => alive_of_kill, rfl, fun hCopied => ⟨hCopied, fun _ => alive_of_kill⟩⟩

theorem Inv.start {ps : Procs} (h : ps.Inv) {i : Thread} (place : Place) (hIdle : ps.unregistered i = none)
    (hRunning : ps.exited = none) : (ps.start i place).Inv where
  started p hp := by
    by_cases hEq : p = ps.spawned
    · subst hEq
      exact Nat.lt_succ_self _
    · exact (h.started p (by simpa [Procs.start, Function.update_of_ne hEq] using hp)).trans (Nat.lt_succ_self _)
  listed p hp := (h.listed p hp).trans (Nat.lt_succ_self _)
  known p hp := by
    by_cases hEq : p = ps.spawned
    · subst hEq
      exact .inr ⟨i, Function.update_self _ _ _⟩
    · rcases h.known p (by simpa [Procs.start, Function.update_of_ne hEq] using hp) with hActive | ⟨j, hj⟩
      · exact .inl hActive
      · have hNe : j ≠ i := fun hEq => by simp [hEq, hIdle] at hj
        exact .inr ⟨j, by simpa [Procs.start, Function.update_of_ne hNe] using hj⟩
  ended hExited := by simp [Procs.start, hRunning] at hExited

theorem Later.start {ps : Procs} {i j : Thread} (hNe : j ≠ i) (place : Place) (hCopied : ps.copied = false) :
    Later j ps (ps.start i place) where
  spawned := Nat.le_succ _
  alive p hp hAlive := by simpa [Procs.start, Function.update_of_ne (Nat.ne_of_lt hp)] using hAlive
  unregistered := Function.update_of_ne hNe _ _
  quiet h := by simp [hCopied] at h

theorem Inv.register {ps : Procs} (h : ps.Inv) {i : Thread} {p : ProcId} (hHeld : ps.unregistered i = some p)
    (hStarted : p < ps.spawned) : (ps.register i p).Inv where
  started := h.started
  listed q hq := by
    rcases List.mem_insert_iff.mp hq with rfl | hActive
    · exact hStarted
    · exact h.listed q hActive
  known q hq := by
    rcases h.known q hq with hActive | ⟨j, hj⟩
    · exact .inl (List.mem_insert_of_mem hActive)
    · by_cases hEq : j = i
      · subst hEq
        rw [hHeld] at hj
        cases hj
        exact .inl List.mem_insert_self
      · exact .inr ⟨j, by simpa [Procs.register, Function.update_of_ne hEq] using hj⟩
  ended := h.ended

theorem Later.register {i j : Thread} (hNe : j ≠ i) (ps : Procs) (p : ProcId) : Later j ps (ps.register i p) :=
  .same rfl rfl (Function.update_of_ne hNe _ _) id

theorem Inv.unregister {ps : Procs} (h : ps.Inv) {p : ProcId} (hDead : ps.alive p = false) : (ps.unregister p).Inv where
  started := h.started
  listed q hq := h.listed q (List.mem_of_mem_filter hq)
  known q hq := by
    have hNe : q ≠ p := fun hEq => by simp [hEq, Procs.unregister, hDead] at hq
    exact (h.known q hq).imp_left fun hActive => List.mem_filter.mpr ⟨hActive, by simpa using hNe⟩
  ended := h.ended

theorem Later.unregister (j : Thread) (ps : Procs) (p : ProcId) : Later j ps (ps.unregister p) := .same rfl rfl rfl id

end Procs

open Procs (Inv Later)

def shutdownRules : Rules runner Thread World Env where
  inv w := w.procs.Inv
  rely i w w' := Later i w.procs w'.procs
  demand _ _ _ := True
  allowed := Undisturbed
  refl i w := Later.refl i w.procs
  trans _ _ _ _ h h' := h.trans h'

def Op.Settling : Op → Prop
  | .popen _ _ | .register _ | .unregister _ | .setShutdown | .copyActive | .osExit _ => False
  | _ => True

/-- What the moves of the other threads and the end of any group leave true for thread `i`. -/
def Kept (i : Thread) (F : Procs → Prop) : Prop := ∀ ps ps', Later i ps ps' → F ps → F ps'

namespace Kept

variable {i : Thread} {F G : Procs → Prop}

theorem stable (h : Kept i F) : shutdownRules.Stable i fun w => F w.procs := fun w w' _ hRely => h w.procs w'.procs hRely

theorem and (hF : Kept i F) (hG : Kept i G) : Kept i fun ps => F ps ∧ G ps :=
  fun ps ps' hLater h => ⟨hF ps ps' hLater h.1, hG ps ps' hLater h.2⟩

end Kept

def Idle (i : Thread) (ps : Procs) : Prop := ps.unregistered i = none

def Started (p : ProcId) (ps : Procs) : Prop := p < ps.spawned

def Dead (p : ProcId) (ps : Procs) : Prop := Started p ps ∧ ps.alive p = false

theorem kept_idle (i : Thread) : Kept i (Idle i) := fun _ _ hLater h => hLater.unregistered.trans h

theorem kept_started (i : Thread) (p : ProcId) : Kept i (Started p) := fun _ _ hLater h => h.trans_le hLater.spawned

theorem kept_dead (i : Thread) (p : ProcId) : Kept i (Dead p) := by
  rintro ps ps' hLater ⟨hStarted, hDead⟩
  refine ⟨kept_started i p ps ps' hLater hStarted, ?_⟩
  by_contra hAlive
  have hBefore := hLater.alive p hStarted (by simpa using hAlive)
  rw [hDead] at hBefore
  cases hBefore

section Steps

variable {parses : List Char → Bool} {i : Thread} {env : Env} {w w' : World} {F : Procs → Prop}

theorem procs_of_settling {op : Op} (hOp : op.Settling) {r : Except Exc op.Ans}
    (h : effect parses i op env w = some (r, w')) : w'.procs = w.procs ∨ ∃ p code, w'.procs = w.procs.kill p code := by
  cases op <;> cases hOp
  case killpg p sig =>
    simp only [effect, Option.some.injEq] at h
    split at h
    · cases h
      split
      · exact .inl rfl
      · exact .inr ⟨p, sig.code, rfl⟩
    · cases h
      exact .inl rfl
  all_goals
    left
    simp only [effect] at h
    grind

theorem step_triple {op : Op} {Q : Except Exc op.Ans → World → Prop} (hF : Kept i F)
    (h : ∀ env w r w', w.procs.Inv → F w.procs → Undisturbed i op env w → w.procs.exited = none →
      effect parses i op env w = some (r, w') →
        (w'.procs.Inv ∧ ∀ j, j ≠ i → Later j w.procs w'.procs) ∧ Q r w') :
    Triple (sem parses) shutdownRules i (fun w => F w.procs) (ask op) Q := by
  apply Triple.perform hF.stable
  intro w hInv hw
  refine ⟨trivial, ?_⟩
  intro env r w' hAllowed hSem
  obtain ⟨hRunning, hEffect⟩ := effect_of_sem hSem
  exact h env w r w' hInv hw hAllowed hRunning hEffect

theorem settling_triple {op : Op} {Q : Except Exc op.Ans → World → Prop} (hOp : op.Settling) (hF : Kept i F)
    (hQ : ∀ env w r w', F w.procs → F w'.procs → effect parses i op env w = some (r, w') → Q r w') :
    Triple (sem parses) shutdownRules i (fun w => F w.procs) (ask op) Q := by
  apply step_triple hF
  intro env w r w' hInv hw _ _ hSem
  rcases procs_of_settling hOp hSem with hSame | ⟨p, code, hKill⟩
  · refine ⟨⟨by rwa [hSame], fun j _ => ?_⟩, hQ env w r w' hw (by rwa [hSame]) hSem⟩
    rw [hSame]
    exact Later.refl j w.procs
  · have hw' : F w'.procs := hF _ _ (by rw [hKill]; exact Later.kill i w.procs p code) hw
    refine ⟨⟨?_, fun j _ => ?_⟩, hQ env w r w' hw hw' hSem⟩
    · rw [hKill]
      exact hInv.kill p code
    · rw [hKill]
      exact Later.kill j w.procs p code

theorem uses_triple {α : Type} {p : Program runner α} (hUses : p.Uses Op.Settling) (hF : Kept i F) :
    Triple (sem parses) shutdownRules i (fun w => F w.procs) p fun _ w => F w.procs :=
  Triple.of_uses hUses hF.stable fun _ hOp => settling_triple hOp hF fun _ _ _ _ _ hw' _ => hw'

theorem poll_triple {p : ProcId} (hF : Kept i F) (hStarted : ∀ ps, F ps → Started p ps) :
    Triple (sem parses) shutdownRules i (fun w => F w.procs) (ask (.poll p))
      (Returns fun code w => F w.procs ∧ (code.isSome → Dead p w.procs)) := by
  have hOp : Op.Settling (.poll p) := trivial
  apply settling_triple hOp hF
  intro env w r w' _ hw' hEffect
  simp only [effect, Option.some.injEq] at hEffect
  cases hEffect
  refine ⟨hw', fun hEnded => ⟨hStarted _ hw', ?_⟩⟩
  by_contra hAlive
  simp [hAlive] at hEnded

def Lost {α : Type} (p : ProcId) (r : Except Exc α) (ps : Procs) : Prop :=
  ∀ exc, r = .error exc → exc = .processLookupError ∧ Dead p ps

theorem getpgid_triple {p : ProcId} (hF : Kept i F) (hStarted : ∀ ps, F ps → Started p ps) :
    Triple (sem parses) shutdownRules i (fun w => F w.procs) (ask (.getpgid p))
      fun r w => F w.procs ∧ Lost p r w.procs := by
  have hOp : Op.Settling (.getpgid p) := trivial
  apply settling_triple hOp hF
  intro env w r w' _ hw' hEffect
  refine ⟨hw', ?_⟩
  rintro exc rfl
  simp only [effect, lookupFailure] at hEffect
  split_ifs at hEffect with hAlive hLingers <;> cases hEffect
  exact ⟨rfl, hStarted _ hw', by simpa using hAlive⟩

theorem killpg_triple {p : ProcId} (sig : Signal) (hF : Kept i F) (hStarted : ∀ ps, F ps → Started p ps) :
    Triple (sem parses) shutdownRules i (fun w => F w.procs) (ask (.killpg p sig))
      fun r w => (F w.procs ∧ (sig = .sigkill → Dead p w.procs)) ∧ Lost p r w.procs := by
  have hOp : Op.Settling (.killpg p sig) := trivial
  apply settling_triple hOp hF
  intro env w r w' _ hw' hEffect
  simp only [effect, lookupFailure, Option.some.injEq] at hEffect
  split_ifs at hEffect with hAlive hSurvives hLingers <;> cases hEffect
  · exact ⟨⟨hw', fun hSig => absurd hSig hSurvives.2⟩, fun exc hExc => by cases hExc⟩
  · exact ⟨⟨hw', fun _ => ⟨hStarted _ hw', Function.update_self _ _ _⟩⟩, fun exc hExc => by cases hExc⟩
  · exact ⟨⟨hw', fun _ => ⟨hStarted _ hw', by simpa using hAlive⟩⟩, fun exc hExc => by cases hExc⟩
  · have hDead : Dead p w.procs := ⟨hStarted _ hw', by simpa using hAlive⟩
    exact ⟨⟨hw', fun _ => hDead⟩, fun exc hExc => by cases hExc; exact ⟨rfl, hDead⟩⟩

theorem wait_triple {p : ProcId} (timeout : Option ℚ) (hF : Kept i F) (hStarted : ∀ ps, F ps → Started p ps) :
    Triple (sem parses) shutdownRules i (fun w => F w.procs) (ask (.wait p timeout))
      fun r w => F w.procs ∧
        match r with
        | .ok _ => Dead p w.procs
        | .error exc => exc = .timeoutExpired ∧ ¬ Dead p w.procs := by
  have hOp : Op.Settling (.wait p timeout) := trivial
  apply settling_triple hOp hF
  intro env w r w' _ hw' hEffect
  refine ⟨hw', ?_⟩
  simp only [effect] at hEffect
  split_ifs at hEffect with hAlive hLimit <;> cases hEffect
  · exact ⟨rfl, fun hDead => absurd hAlive (by simp [hDead.2])⟩
  · exact ⟨hStarted _ hw', by simpa using hAlive⟩

/-! ## Ending a group -/

variable {p : ProcId}

theorem escalate_cons_triple (sig : Signal) (timeout : ℚ) {rest : List (Signal × ℚ)} (hF : Kept i F)
    (hStarted : ∀ ps, F ps → Started p ps)
    (hRest : sig ≠ .sigkill → Triple (sem parses) shutdownRules i (fun w => F w.procs) (escalate p rest)
      (Returns fun _ w => F w.procs ∧ Dead p w.procs)) :
    Triple (sem parses) shutdownRules i (fun w => F w.procs) (escalate p ((sig, timeout) :: rest))
      (Returns fun _ w => F w.procs ∧ Dead p w.procs) := by
  apply (killpg_triple sig hF hStarted).attempt.bind_returns
  rintro (exc | _)
  · rintro w _ ⟨⟨hw, _⟩, hLost⟩
    obtain ⟨rfl, hDead⟩ := hLost exc rfl
    exact ⟨hw, hDead⟩
  · have hSent : Kept i fun ps => F ps ∧ (sig = .sigkill → Dead p ps) :=
      hF.and fun ps ps' hLater h hSig => kept_dead i p ps ps' hLater (h hSig)
    apply ((wait_triple (some timeout) hSent fun ps h => hStarted ps h.1).attempt.pre fun w _ h => h.1).bind_returns
    rintro (exc | code)
    · rintro w hInv ⟨⟨hw, hKilled⟩, rfl, hAlive⟩
      -- a group that was sent SIGKILL cannot still be there
      exact hRest (fun hSig => hAlive (hKilled hSig)) w hInv hw
    · rintro w _ ⟨⟨hw, _⟩, hDead⟩
      exact ⟨hw, hDead⟩

theorem escalate_triple (levels : List (Signal × ℚ)) (last : ℚ) (hF : Kept i F)
    (hStarted : ∀ ps, F ps → Started p ps) :
    Triple (sem parses) shutdownRules i (fun w => F w.procs) (escalate p (levels ++ [(.sigkill, last)]))
      (Returns fun _ w => F w.procs ∧ Dead p w.procs) := by
  induction levels with
  | nil => exact escalate_cons_triple .sigkill last hF hStarted fun hSig => absurd rfl hSig
  | cons level rest ih => exact escalate_cons_triple level.1 level.2 hF hStarted fun _ => ih

theorem signalGroup_triple (levels : List (Signal × ℚ)) (last : ℚ) (hF : Kept i F)
    (hStarted : ∀ ps, F ps → Started p ps) :
    Triple (sem parses) shutdownRules i (fun w => F w.procs) (signalGroup p (levels ++ [(.sigkill, last)]))
      (Returns fun _ w => F w.procs ∧ Dead p w.procs) := by
  apply (getpgid_triple hF hStarted).attempt.bind_returns
  rintro (exc | _)
  · rintro w _ ⟨hw, hLost⟩
    obtain ⟨rfl, hDead⟩ := hLost exc rfl
    exact ⟨hw, hDead⟩
  · exact (escalate_triple levels last hF hStarted).pre fun _ _ h => h.1

theorem terminateProcessGroup_triple (timeout : ℚ) (hF : Kept i F) (hStarted : ∀ ps, F ps → Started p ps) :
    Triple (sem parses) shutdownRules i (fun w => F w.procs) (terminateProcessGroup p timeout)
      (Returns fun _ w => F w.procs ∧ Dead p w.procs) :=
  signalGroup_triple [(.sigint, timeout), (.sigterm, 5)] 5 hF hStarted

theorem killProcGroupEscalating_triple (hF : Kept i F) (hStarted : ∀ ps, F ps → Started p ps) :
    Triple (sem parses) shutdownRules i (fun w => F w.procs) (killProcGroupEscalating p)
      (Returns fun _ w => F w.procs ∧ Dead p w.procs) := by
  apply (poll_triple hF hStarted).bind_returns
  rintro (_ | code)
  · exact (signalGroup_triple [(.sigint, 5), (.sigterm, 3)] 1 hF hStarted).pre fun _ _ h => h.1
  · exact Triple.pure fun w _ hw => ⟨hw.1, hw.2 rfl⟩

/-! ## The registry -/

def Growing (F : Procs → Prop) : Prop := ∀ ps ps' : Procs, ps.spawned ≤ ps'.spawned → F ps → F ps'

theorem growing_true : Growing fun _ => True := fun _ _ _ h => h

theorem Growing.kept (hF : Growing F) : Kept i F := fun ps ps' hLater => hF ps ps' hLater.spawned

theorem Growing.started (hF : Growing F) (p : ProcId) : Growing fun ps => F ps ∧ Started p ps :=
  fun ps ps' hLe h => ⟨hF ps ps' hLe h.1, Nat.lt_of_lt_of_le h.2 hLe⟩

def Holding (i : Thread) (p : ProcId) (ps : Procs) : Prop := ps.unregistered i = some p ∧ Started p ps

theorem kept_holding (i : Thread) (p : ProcId) : Kept i (Holding i p) :=
  fun ps ps' hLater h => ⟨hLater.unregistered.trans h.1, kept_started i p ps ps' hLater h.2⟩

theorem popen_triple (cmd : List String) (dir : Path) (hF : Growing F) :
    Triple (sem parses) shutdownRules i (fun w => Idle i w.procs ∧ F w.procs) (ask (.popen cmd dir))
      fun r w => F w.procs ∧
        match r with
        | .ok p => Holding i p w.procs
        | .error _ => Idle i w.procs := by
  apply step_triple ((kept_idle i).and hF.kept)
  rintro env w r w' hInv ⟨hIdle, hw⟩ hAllowed hRunning hEffect
  simp only [effect, Option.some.injEq] at hEffect
  split at hEffect <;> cases hEffect
  · exact ⟨⟨hInv, fun j _ => Later.refl j w.procs⟩, hw, hIdle⟩
  · refine ⟨⟨hInv.start dir.place hIdle hRunning, fun j hj => Later.start hj dir.place hAllowed⟩, ?_⟩
    exact ⟨hF w.procs _ (Nat.le_succ _) hw, Function.update_self _ _ _, Nat.lt_succ_self _⟩

theorem register_triple (p : ProcId) (hF : Growing F) :
    Triple (sem parses) shutdownRules i (fun w => Holding i p w.procs ∧ F w.procs) (ask (.register p))
      (Returns fun _ w => Idle i w.procs ∧ F w.procs ∧ Started p w.procs) := by
  apply step_triple ((kept_holding i p).and hF.kept)
  rintro env w r w' hInv ⟨hHolding, hw⟩ _ _ hEffect
  simp only [effect, Option.some.injEq] at hEffect
  cases hEffect
  refine ⟨⟨hInv.register hHolding.1 hHolding.2, fun j hj => Later.register hj w.procs p⟩, ?_⟩
  exact ⟨Function.update_self _ _ _, hF w.procs _ (Nat.le_refl _) hw, hHolding.2⟩

theorem unregister_triple (p : ProcId) (hF : Growing F) :
    Triple (sem parses) shutdownRules i (fun w => (Idle i w.procs ∧ F w.procs) ∧ Dead p w.procs) (ask (.unregister p))
      (Returns fun _ w => Idle i w.procs ∧ F w.procs) := by
  apply step_triple (((kept_idle i).and hF.kept).and (kept_dead i p))
  rintro env w r w' hInv ⟨⟨hIdle, hw⟩, hDead⟩ _ _ hEffect
  simp only [effect, Option.some.injEq] at hEffect
  cases hEffect
  exact ⟨⟨hInv.unregister hDead.2, fun j _ => Later.unregister j w.procs p⟩, hIdle, hF w.procs _ (Nat.le_refl _) hw⟩

theorem settled_triple {op : Op} (hOp : op.Settling) (hF : Kept i F) :
    Triple (sem parses) shutdownRules i (fun w => F w.procs) (ask op) fun _ w => F w.procs :=
  settling_triple hOp hF fun _ _ _ _ _ hw' _ => hw'

theorem settled_bind {op : Op} {α : Type} {rest : op.Ans → Program runner α} (hF : Kept i F) (hOp : op.Settling)
    (hRest : ∀ answer, Triple (sem parses) shutdownRules i (fun w => F w.procs) (rest answer) fun _ w => F w.procs) :
    Triple (sem parses) shutdownRules i (fun w => F w.procs) (ask op >>= rest) fun _ w => F w.procs :=
  (settled_triple hOp hF).bind hRest fun _ _ _ hw => hw

end Steps

end RoveMapping.Tuner.TrialRunner
