import RoveMapping.Tuner.BagRun
import RoveMapping.Tuner.FirstTrial
import RoveMapping.Tuner.Sessions

/-! # What a bag run leaves behind

`run_single_bag` over sessions: what is known of the launch and of the bag player from step to step, up to
every return and every exception.
-/
namespace RoveMapping.Tuner.TrialRunner.Sessions
open Resumption PosixPath
set_option autoImplicit false

section Steps

variable {launch : ProcId} {raised : Bool} {known : ProcId → Session → Prop} {w : Host}

/-! ## The bag player -/

theorem popen_triple (cmd : List String) (dir : Path) (hKnown : Lasting known) :
    Triple hostSem (hostRules launch) () (Stage launch raised known) (ask (.popen cmd dir))
      (Ends launch raised fun p w => launch < p ∧ Stage launch raised (Function.update known p Session.Unreaped) w) := by
  refine host_triple hKnown (fun _ _ _ hFailed => hFailed) fun w answers answer r w' hw _ _ hAnswered => ?_
  cases hAnswered
  refine ⟨hw.started, by simpa using Nat.lt_succ_of_lt hw.started, hw.raised, fun q s hq hs => ?_⟩
  by_cases hNew : q = w.sessions.length
  · subst hNew
    rw [List.getElem?_concat_length] at hs
    cases hs
    rw [Function.update_self]
    exact unreaped_of_running rfl
  · have hOld : q < w.sessions.length := by
      have hLt := (List.getElem?_eq_some_iff.mp hs).1
      rw [List.length_append, List.length_singleton] at hLt
      exact Nat.lt_of_le_of_ne (Nat.le_of_lt_succ hLt) hNew
    rw [List.getElem?_append_left hOld] at hs
    rw [Function.update_of_ne hNew]
    exact hw.known q s hq hs

/-- The launch has been started and its leader was not seen to end; every later group is gone. -/
def Launched (launch : ProcId) : ProcId → Session → Prop := Function.update AllCleared launch Session.Unreaped

theorem lasting_launched : Lasting (Launched launch) := lasting_allCleared.update (fun _ _ h => h.unreaped) launch

theorem enter_unreaped {s : Session} (h : s.Unreaped) : s.enter.Unreaped := h

theorem playBag_triple (opts : Options) (dir : Path) (bagCmd : List String) :
    Triple hostSem (hostRules launch) () (Stage launch false (Launched launch)) (playBag opts dir bagCmd)
      (Ends launch false fun _ => Stage launch false (Launched launch)) := by
  refine (plain_triple (by trivial) lasting_launched).bind (fun _ => ?_) fun _ _ _ h => h
  refine (popen_triple bagCmd dir lasting_launched).bind (fun bagProc => ?_) fun _ _ _ h => h
  refine Triple.given fun hLater => ?_
  have hUnreaped : Lasting (Function.update (Launched launch) bagProc Session.Unreaped) :=
    lasting_launched.update (fun _ _ h => h.unreaped) bagProc
  have hOver : Lasting (Function.update (Launched launch) bagProc Session.Over) :=
    lasting_launched.update (fun _ _ h => h.over_of) bagProc
  have hSame : Function.update (Launched launch) bagProc Session.Cleared = Launched launch := by
    apply Function.update_eq_self_iff.mpr
    rw [Launched, Function.update_of_ne hLater.ne']
    rfl
  have hReap : ∀ s, Launched launch bagProc s → Launched launch bagProc s.reap := by
    intro s hs
    simp only [Launched, Function.update_of_ne hLater.ne'] at hs ⊢
    exact ⟨reap_over hs.1.1 hs.1.2, (reap_registered s).trans hs.2⟩
  have hFinish : ∀ timedOut, Triple hostSem (hostRules launch) ()
      (Stage launch false (Function.update (Launched launch) bagProc Session.Over))
      (do
        ask (.unregister bagProc)
        let returncode ← ask (.poll bagProc)
        return (⟨timedOut, returncode.getD 0⟩ : Playback))
      (Ends launch false fun _ => Stage launch false (Launched launch)) := by
    intro timedOut
    refine (leave_triple hOver).bind (fun _ => ?_) fun _ _ _ h => h
    change Triple _ _ _ (Stage launch false (Function.update (Launched launch) bagProc Session.Cleared)) _ _
    rw [hSame]
    exact (look_triple lasting_launched hReap).bind (fun _ => Triple.pure fun w _ hw => hw) fun _ _ _ h => h
  refine (enter_triple hUnreaped fun _ => enter_unreaped).bind (fun _ => ?_) fun _ _ _ h => h
  apply (wait_triple _ hUnreaped hLater.le).attempt.bind_returns
  rintro (exc | code)
  · rintro w - (⟨rfl, hw, -⟩ | ⟨hOther, hFailed⟩)
    · have hTimedOut := (terminateProcessGroup_triple 10 lasting_launched hLater.le).bind (fun _ => hFinish true) fun _ _ _ h => h
      exact hTimedOut w trivial hw
    · cases exc with
      | timeoutExpired => exact absurd rfl hOther
      | processLookupError | osError | template => exact hFailed
  · exact hFinish false

/-! ## The launch -/

theorem forget_launch : Function.update AllCleared launch Session.Cleared = AllCleared := Function.update_eq_self_iff.mpr rfl

theorem lasting_over : Lasting (Function.update AllCleared launch Session.Over) :=
  lasting_allCleared.update (fun _ _ h => h.over_of) launch

theorem forget_triple : Triple hostSem (hostRules launch) ()
    (Stage launch raised (Function.update AllCleared launch Session.Over)) (ask (.unregister launch))
    (Ends launch raised fun _ => Stage launch raised AllCleared) := by
  refine (leave_triple lasting_over).consequence (fun _ _ h => h) ?_
  rintro (exc | _) w - h
  · exact h
  · exact forget_launch ▸ h

theorem supervise_triple (opts : Options) (dir : Path) (bagPath : String) (bagCmd : List String) (start : ℚ) :
    Triple hostSem (hostRules launch) () (Stage launch false (Launched launch)) (supervise opts dir bagPath bagCmd start launch)
      (Ends launch false fun _ => Stage launch false AllCleared) := by
  refine (enter_triple lasting_launched fun _ => enter_unreaped).bind (fun _ => ?_) fun _ _ _ h => h
  refine (plain_triple (by trivial) lasting_launched).bind (fun _ => ?_) fun _ _ _ h => h
  refine (poll_triple lasting_launched).bind ?_ fun _ _ _ h => h
  rintro (_ | code)
  · refine (playBag_triple opts dir bagCmd).bind (fun playback => ?_) fun _ _ _ h => h
    refine (plain_triple (by trivial) lasting_launched).bind (fun _ => ?_) fun _ _ _ h => h
    refine (terminateProcessGroup_triple _ lasting_allCleared (Nat.le_refl _)).bind (fun _ => ?_) fun _ _ _ h => h
    exact forget_triple.bind (fun _ => Triple.pure fun w _ hw => hw) fun _ _ _ h => h
  · refine Triple.pre ?_ fun w _ hw => Stage.learn hw fun s _ h => h.1
    refine forget_triple.bind (fun _ => ?_) fun _ _ _ h => h
    exact (plain_triple (by trivial) lasting_allCleared).bind (fun now => Triple.pure fun w _ hw => hw) fun _ _ _ h => h

theorem cleanUp_triple (opts : Options) :
    Triple hostSem (hostRules launch) () (Failed launch false) (cleanUp opts launch)
      (Ends launch true fun _ => Stage launch true AllCleared) := by
  have hAny : Lasting (Function.update AllCleared launch fun _ => True) := lasting_allCleared.update (fun _ _ _ h => h) launch
  refine Triple.pre (?_ : Triple _ _ _ (Stage launch true (Function.update AllCleared launch fun _ => True)) _ _)
    fun w _ hw => Stage.mono hw ?_
  · refine (poll_triple hAny).bind ?_ fun _ _ _ h => h
    rintro (_ | code)
    · refine (terminateProcessGroup_triple _ lasting_allCleared (Nat.le_refl _)).bind (fun _ => ?_) fun _ _ _ h => h
      exact forget_triple
    · refine Triple.pure fun w _ hw => ?_
      have hCleared : Stage launch true (Function.update AllCleared launch Session.Cleared) w :=
        Stage.learn hw fun s _ h => ⟨h.1, h.2 rfl⟩
      rwa [forget_launch] at hCleared
  · intro p s hp hKnown
    by_cases hEq : p = launch
    · rw [hEq, Function.update_self]
      trivial
    · rw [Function.update_of_ne hEq]
      exact hKnown (.inl (Nat.lt_of_le_of_ne hp (Ne.symm hEq)))

/-! ## The whole run -/

def Before (launch : ProcId) (w : Host) : Prop := w.sessions.length = launch ∧ w.raised = false

def Gone (launch : ProcId) (w : Host) : Prop := ∀ p s, launch ≤ p → w.sessions[p]? = some s → s.Cleared

theorem stable_before : (hostRules launch).Stable () (Before launch) := by
  rintro w w' - hPasses ⟨hCount, hRaised⟩
  exact ⟨hPasses.count.trans hCount, hPasses.raised.trans hRaised⟩

theorem stable_gone : (hostRules launch).Stable () (Gone launch) := by
  rintro w w' - hPasses hGone p s' hp hs'
  obtain ⟨s, hs, hSession⟩ := hPasses.session p s' hs'
  exact hSession.cleared (hGone p s hp hs)

theorem Stage.gone (h : Stage launch raised AllCleared w) : Gone launch w := h.known

theorem Before.gone (h : w.sessions.length = launch) : Gone launch w := by
  rintro p s hp hs
  exact absurd (List.getElem?_eq_some_iff.mp hs).1 (Nat.not_lt.mpr (h.trans_le hp))

/-- Up to the start of the launch nothing is left behind by an exception. -/
def Preparing {α : Type} (launch : ProcId) : Except Exc α → Host → Prop
  | .ok _, w => Before launch w
  | .error _, w => Gone launch w

theorem preparing_triple {op : Op} (hOp : Plain op) :
    Triple hostSem (hostRules launch) () (Before launch) (ask op) (Preparing launch) := by
  refine perform_triple stable_before (fun w _ _ hw _ _ _ => Before.gone hw.1) fun w answers answer r w' hw _ _ hAnswered => ?_
  obtain ⟨rfl, rfl⟩ := answered_plain hOp hAnswered
  exact hw

theorem gone_triple {op : Op} (hOp : Plain op) :
    Triple hostSem (hostRules launch) () (Gone launch) (ask op) fun _ => Gone launch := by
  refine perform_triple stable_gone (fun w _ _ hw _ _ _ => hw) fun w answers answer r w' hw _ _ hAnswered => ?_
  obtain ⟨rfl, rfl⟩ := answered_plain hOp hAnswered
  exact hw

theorem plain_of_scoring (dir : Path) (op : Op) (h : op.Scoring dir) : Plain op := by
  cases op <;> trivial

/-- The `finally` block when the launch has ended early. -/
theorem cleanUp_gone_triple (opts : Options) :
    Triple hostSem (hostRules launch) () (Gone launch) (cleanUp opts launch) fun _ => Gone launch := by
  have hPoll : Triple hostSem (hostRules launch) () (Gone launch) (ask (.poll launch))
      fun r w => Gone launch w ∧ r ≠ .ok none := by
    refine perform_triple stable_gone (fun w _ _ hw _ _ _ => ⟨hw, nofun⟩) fun w answers answer r w' hw _ _ hAnswered => ?_
    obtain ⟨s, hs, hEq⟩ := Option.map_eq_some_iff.mp hAnswered
    cases hEq
    have hCleared := hw launch s (Nat.le_refl _) hs
    refine ⟨fun p s' hp hs' => ?_, fun hNone => hCleared.1.1 (returncode_eq_none.mp (Except.ok.inj hNone))⟩
    obtain ⟨s, hs, rfl⟩ := Host.session_change hs'
    have hBefore := hw p s hp hs
    split
    · exact ⟨reap_over hBefore.1.1 hBefore.1.2, (reap_registered s).trans hBefore.2⟩
    · exact hBefore
  refine hPoll.bind ?_ fun _ _ _ h => h.1
  rintro (_ | code)
  · rintro w - ⟨-, hCode⟩
    exact absurd rfl hCode
  · exact Triple.pure fun w _ hw => hw.1

theorem popen_launch_triple (cmd : List String) (dir : Path) :
    Triple hostSem (hostRules launch) () (Before launch) (ask (.popen cmd dir))
      fun r w => match r with
        | .ok p => p = launch ∧ Stage launch false (Launched launch) w
        | .error _ => Gone launch w := by
  refine perform_triple stable_before (fun w _ _ hw _ _ _ => Before.gone hw.1) fun w answers answer r w' hw _ _ hAnswered => ?_
  obtain ⟨rfl, hRaised⟩ := hw
  cases hAnswered
  refine ⟨rfl, by simp, hRaised, fun p s hp hs => ?_⟩
  have hLast : p = w.sessions.length := by
    have hLt := (List.getElem?_eq_some_iff.mp hs).1
    rw [List.length_append, List.length_singleton] at hLt
    exact Nat.le_antisymm (Nat.le_of_lt_succ hLt) hp
  subst hLast
  rw [List.getElem?_concat_length] at hs
  cases hs
  rw [Launched, Function.update_self]
  exact unreaped_of_running rfl

theorem launchAndPlay_triple (opts : Options) (dir : Path) (bagPath : String) (launchCmd bagCmd : List String) (start : ℚ) :
    Triple hostSem (hostRules launch) () (Before launch) (launchAndPlay opts dir bagPath launchCmd bagCmd start)
      fun _ => Gone launch := by
  refine (preparing_triple (by trivial)).bind (fun _ => ?_) fun _ _ _ h => h
  refine (popen_launch_triple launchCmd dir).bind (fun launchProc => ?_) fun _ _ _ h => h
  refine Triple.given fun hLaunch => ?_
  subst hLaunch
  apply (supervise_triple opts dir bagPath bagCmd start).attempt.bind_returns
  rintro (exc | result | playback)
  · refine (cleanUp_triple opts).bind (fun _ => Triple.throw fun w _ hw => hw.gone) fun _ w _ hw => ?_
    exact fun p s hp hs => hw.known p s hp hs (.inr rfl)
  · refine Triple.pre ?_ fun w _ hw => Stage.gone hw
    exact (cleanUp_gone_triple opts).bind (fun _ => Triple.pure fun w _ hw => hw) fun _ _ _ hw => hw
  · exact Triple.pure fun w _ hw => Stage.gone hw

theorem runSingleBag_triple (bagPath : String) (overrides : List (String × Template.Override)) (dir : Path)
    (env : EnvConfig) (opts : Options) :
    Triple hostSem (hostRules launch) () (Before launch) (runSingleBag bagPath overrides dir env opts) fun _ => Gone launch := by
  refine (preparing_triple (by trivial)).bind (fun _ => ?_) fun _ _ _ h => h
  refine (preparing_triple (by trivial)).bind (fun _ => ?_) fun _ _ _ h => h
  refine (preparing_triple (by trivial)).bind (fun _ => ?_) fun _ _ _ h => h
  refine (preparing_triple (by trivial)).bind (fun _ => ?_) fun _ _ _ h => h
  split
  · exact Triple.pure fun w _ hw => Before.gone hw.1
  refine (preparing_triple (by trivial)).bind (fun found => ?_) fun _ _ _ h => h
  split
  · refine (preparing_triple (by trivial)).bind (fun start => ?_) fun _ _ _ h => h
    refine (launchAndPlay_triple opts dir bagPath _ _ start).bind ?_ fun _ _ _ h => h
    rintro (result | playback)
    · exact Triple.pure fun w _ hw => hw
    · exact Triple.of_uses (judge_uses opts dir bagPath start playback) stable_gone fun op hOp => gone_triple (plain_of_scoring dir op hOp)
  · exact Triple.pure fun w _ hw => Before.gone hw.1

end Steps

abbrev BagRun : Type := Pool runner Unit Host (BagRunResult ℚ)

def called (before : List Session) (bagPath : String) (overrides : List (String × Template.Override)) (dir : Path)
    (env : EnvConfig) (opts : Options) : BagRun := ⟨⟨before, false⟩, fun _ => runSingleBag bagPath overrides dir env opts⟩

theorem host_proof (launch : ProcId) : host.Proof (hostRules launch) (StepsOk (Contained launch)) fun _ _ => Gone launch where
  stable _ _ := stable_gone
  allowed _ _ _ _ _ hOk hOp := hOk.allowed hOp
  start _ _ call := call.elim
  env _ _ _ _ _ hStir := ⟨trivial, fun _ => passes_stir hStir⟩

/-- Where every step is contained, no process of either group is alive or registered when `run_single_bag` returns or raises. -/
theorem gone_of_contained {before : List Session} {bagPath : String} {overrides : List (String × Template.Override)}
    {dir : Path} {env : EnvConfig} {opts : Options} {pool : BagRun} {outcome : Except Exc (BagRunResult ℚ)}
    (hRun : Reaches host.next (StepsOk (Contained before.length)) (called before bagPath overrides dir env opts) pool)
    (hEnd : (pool.thread ()).outcome? = some outcome) : Gone before.length pool.shared := by
  have hSafe : Pool.Safe host (hostRules before.length) (fun _ _ => Gone before.length)
      (called before bagPath overrides dir env opts) :=
    ⟨trivial, fun _ => runSingleBag_triple bagPath overrides dir env opts _ trivial ⟨rfl, rfl⟩⟩
  exact (Machine.sound (host_proof before.length) hSafe hRun).finished hEnd

/-! ## A launch that ends early -/

/-- For any behaviour of the groups and any exceptions. -/
def CleansUp : Prop := ∀ before bagPath overrides dir env opts pool outcome,
  Reaches host.next (fun _ _ => True) (called before bagPath overrides dir env opts) pool →
    (pool.thread ()).outcome? = some outcome → Gone before.length pool.shared

instance (op : Op) : Inhabited op.Ans := by
  cases op <;> infer_instance

def willing : Answers
  | .bagExists _ => .ok true
  | _ => .ok default

def hallway : BagRun := called [] "hallway" [] hallwayDir {} { outputRoot := dataRoot }

/-- The leader of the launch ends during the warm-up, with any number of other members left. -/
theorem hallway_early_exit {f : Unit → runner.Op → Answers → Host → Prop} (others : ℕ)
    (hOk : ∀ op w, w.raised = false → (∀ s ∈ w.sessions, s.leader = .running ∨ s.others = others) → f () op willing w) :
    ∃ thread result, Reaches host.next (StepsOk f) hallway
      ⟨⟨[⟨.reaped 1, others, false⟩], false⟩, Function.update thread () (.pure result)⟩ := by
  have hNone : ∀ s ∈ ([] : List Session), s.leader = .running ∨ s.others = others := nofun
  have hOne : ∀ {s : Session}, s.leader = .running ∨ s.others = others → ∀ s' ∈ [s], s'.leader = .running ∨ s'.others = others :=
    fun h => List.forall_mem_singleton.mpr h
  have hStart : Reaches host.next (StepsOk f) hallway ⟨⟨[], false⟩, Function.update hallway.thread () (hallway.thread ())⟩ := by
    rw [Function.update_eq_self]
    exact .refl
  have h₁ := hStart.stepOk willing (hOk _ _ rfl hNone) rfl
  have h₂ := h₁.stepOk willing (hOk _ _ rfl hNone) rfl
  have h₃ := h₂.stepOk willing (hOk _ _ rfl hNone) rfl
  have h₄ := h₃.stepOk willing (hOk _ _ rfl hNone) rfl
  have h₅ := h₄.stepOk willing (hOk _ _ rfl hNone) rfl
  have h₆ := h₅.stepOk willing (hOk _ _ rfl hNone) rfl
  have h₇ := h₆.stepOk willing (hOk _ _ rfl hNone) rfl
  have h₈ := h₇.stepOk willing (hOk _ _ rfl hNone) rfl
  have h₉ := h₈.stepOk willing (hOk _ _ rfl (hOne (.inl rfl))) rfl
  have hGrown := h₉.env (.members 0 others) trivial rfl
  have hEnded := hGrown.env (.exits 0 1) trivial rfl
  have h₁₀ := hEnded.stepOk willing (hOk _ _ rfl (hOne (.inr rfl))) rfl
  have h₁₁ := h₁₀.stepOk willing (hOk _ _ rfl (hOne (.inr rfl))) rfl
  have h₁₂ := h₁₁.stepOk willing (hOk _ _ rfl (hOne (.inr rfl))) rfl
  have h₁₃ := h₁₂.stepOk willing (hOk _ _ rfl (hOne (.inr rfl))) rfl
  have h₁₄ := h₁₃.stepOk willing (hOk _ _ rfl (hOne (.inr rfl))) rfl
  exact ⟨_, _, h₁₄⟩

theorem contained_willing {launch : ProcId} {op : runner.Op} {w : Host} (hRaised : w.raised = false)
    (hSessions : ∀ s ∈ w.sessions, s.leader = .running ∨ s.others = 0) : Contained launch () op willing w := by
  have hOthers : ∀ (p : ProcId) s, w.sessions[p]? = some s → s.leader ≠ .running → s.others = 0 :=
    fun p s hs hLeader => (hSessions s (List.mem_of_getElem? hs)).resolve_left hLeader
  cases op with
  | poll p => exact fun s hs hLeader => ⟨hOthers p s hs hLeader, fun h => by simp [hRaised] at h⟩
  | wait p timeout => exact hOthers p
  | _ => trivial

theorem gone_of_contained_early_exit : ∃ pool : BagRun, pool.shared.sessions = [⟨.reaped 1, 0, false⟩] ∧ Gone 0 pool.shared := by
  obtain ⟨thread, result, hRun⟩ := hallway_early_exit 0 fun op w => contained_willing
  exact ⟨_, rfl, gone_of_contained hRun (congrArg Program.outcome? (Function.update_self () _ thread))⟩

/-- The leader ends and a node that it started goes on. -/
theorem cleansUp_early_exit : ¬CleansUp := by
  intro hClean
  obtain ⟨thread, result, hRun⟩ := @hallway_early_exit (fun _ _ _ _ => True) 1 fun _ _ _ _ => trivial
  have hGone := hClean _ _ _ _ _ _ _ _ (hRun.mono fun _ _ _ => trivial) (congrArg Program.outcome? (Function.update_self () _ thread))
  cases (hGone 0 _ (Nat.le_refl _) rfl).1.2

end RoveMapping.Tuner.TrialRunner.Sessions
