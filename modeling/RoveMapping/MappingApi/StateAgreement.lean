import RoveMapping.MappingApi.Actions

/-! # The recorded mapping state against rtabmap's own

Requests run one at a time, with info messages handled between any two of their operations.
Only `actionReset` can leave a recorded state that rtabmap contradicts: it drops the result of
its resume, and records `running` after the reset whatever rtabmap was doing.
-/
namespace RoveMapping.MappingApi
open Resumption
set_option autoImplicit false

def machine : Machine api Unit World Env Request Event Result := ⟨sem, fun _ request => request.action, onEvent⟩

structure Initial (pool : Pool api Unit World Result) : Prop where
  unknown : pool.shared.mappingState = .unknown
  quiet : pool.shared.published = []
  idle : (pool.thread ()).outcome?.isSome

/-- The assumptions about rtabmap's services: a reported success took effect, a reported
failure did not, and no call times out. -/
def Honest (op : Op) (env : Env) : Prop :=
  ∀ svc, op = .callAsync svc → env.reply svc ≠ .timeout ∧ (env.reply svc = .done ↔ env.effect svc = true)

def Assumed (_ : Unit) (op : api.Op) (env : Env) (_ : World) : Prop := Honest op env

def Agrees (w : World) : Prop :=
  (w.mappingState = .running → w.rtabmap = .running) ∧ (w.mappingState = .paused → w.rtabmap = .paused)

def StateAgreement : Prop :=
  ∀ start pool, Initial start → Reaches machine.next (StepsOk Assumed) start pool →
    (pool.thread ()).outcome?.isSome → Agrees pool.shared

/-- A reset that fails must not follow a successful resume of the same request. -/
def MayFail (w : World) : Prop := w.mappingState = .paused → w.rtabmap = .paused

def ResetSafe (op : Op) (env : Env) (w : World) : Prop :=
  (op = .waitForService .reset → env.available .reset = false → MayFail w) ∧
    (op = .callAsync .reset → if env.reply .reset = .done then w.rtabmap = .running else MayFail w)

def AssumedSafe (_ : Unit) (op : api.Op) (env : Env) (w : World) : Prop := Honest op env ∧ ResetSafe op env w

instance (op : Op) (env : Env) : Decidable (Honest op env) :=
  match op with
  | .callAsync svc => decidable_of_iff (env.reply svc ≠ .timeout ∧ (env.reply svc = .done ↔ env.effect svc = true))
      ⟨fun h _ hSvc => by cases hSvc; exact h, fun h => h svc rfl⟩
  | .readState | .writeState _ | .resetState | .waitForService _ | .sleep | .time | .utcnow | .isFile _
  | .makedirs _ | .run _ | .listdir _ | .getmtime _ | .getsize _ => .isTrue (by intro svc h; cases h)

instance (w : World) : Decidable (MayFail w) := inferInstanceAs (Decidable (_ → _))

instance (op : Op) (env : Env) (w : World) : Decidable (ResetSafe op env w) := inferInstanceAs (Decidable (_ ∧ _))

instance (i : Unit) (op : api.Op) (env : Env) (w : World) : Decidable (Assumed i op env w) :=
  inferInstanceAs (Decidable (Honest op env))

instance (i : Unit) (op : api.Op) (env : Env) (w : World) : Decidable (AssumedSafe i op env w) :=
  inferInstanceAs (Decidable (Honest op env ∧ ResetSafe op env w))

/-- Agreement, and a pending info message only where it tells the truth. -/
def Settled (w : World) : Prop :=
  Agrees w ∧ (w.mappingState = .unknown → w.published ≠ [] → w.rtabmap = .running)

def Interferes (w w' : World) : Prop :=
  w'.rtabmap = w.rtabmap ∧ (w.mappingState ≠ .unknown → w'.mappingState = w.mappingState) ∧
    (Settled w → Settled w')

def rules : Rules api Unit World Env where
  inv _ := True
  rely _ := Interferes
  demand _ _ _ := True
  allowed := AssumedSafe
  refl _ _ := ⟨rfl, fun _ => rfl, id⟩
  trans _ s t u hst htu := by
    refine ⟨htu.1.trans hst.1, ?_, fun h => htu.2.2 (hst.2.2 h)⟩
    intro hs
    rw [htu.2.1 (by rwa [hst.2.1 hs]), hst.2.1 hs]

theorem interferes_of_event {event : Event} {w w' : World} (h : onEvent event w = some w') :
    Interferes w w' := by
  cases event with
  | publish msg =>
    simp only [onEvent] at h
    split at h
    · rename_i hRunning
      cases h
      exact ⟨rfl, fun _ => rfl, fun hs => ⟨hs.1, fun _ _ => hRunning⟩⟩
    · cases h
  | handle index =>
    obtain ⟨msg, hMsg, rfl⟩ := Option.map_eq_some_iff.mp h
    refine ⟨rfl, fun hw => if_neg hw, ?_⟩
    intro hs
    have hPending : w.published ≠ [] := by
      intro hEmpty
      rw [hEmpty] at hMsg
      cases hMsg
    by_cases hw : w.mappingState = .unknown
    · have hRunning := hs.2 hw hPending
      simp [Settled, Agrees, World.onInfo, hw, hRunning]
    · refine ⟨?_, fun h => absurd ((if_neg hw).symm.trans h) hw⟩
      simpa only [Agrees, World.onInfo, if_neg hw] using hs.1

section Triples

variable {P : World → Prop}

theorem guarantee (w w' : World) : rules.Guarantee () w w' := ⟨trivial, fun _ h => absurd rfl h⟩

theorem ask_triple {op : Op} {Q : Except Exc op.Ans → World → Prop} (hP : rules.Stable () P)
    (h : ∀ env w, P w → Honest op env → ResetSafe op env w → Q (answer env w op).1 (answer env w op).2) :
    Triple sem rules () P (ask op) Q := by
  apply Triple.perform hP
  intro w _ hw
  refine ⟨trivial, ?_⟩
  intro env result w' hAllowed hSem
  obtain ⟨rfl, rfl⟩ := Prod.mk.inj (Option.some.inj hSem)
  exact ⟨guarantee w _, h env w hw hAllowed.1 hAllowed.2⟩

def CallOutcome (done failed : World → Prop) (result : Bool × String) (w : World) : Prop :=
  if result.1 then done w else failed w

theorem callEmpty_triple {svc : Service} {done failed : World → Prop} (hP : rules.Stable () P)
    (hDone : ∀ env w, P w → ResetSafe (.callAsync svc) env w → env.reply svc = .done → done (w.call svc))
    (hFailed : ∀ env w, P w → ResetSafe (.callAsync svc) env w → env.reply svc ≠ .done → failed w)
    (hUnavailable : ∀ env w, P w → ResetSafe (.waitForService svc) env w → env.available svc = false → failed w) :
    Triple sem rules () P (callEmpty svc) (Returns (CallOutcome done failed)) := by
  unfold callEmpty
  apply Triple.bind_returns (M := fun available w => if available then P w else failed w)
  · apply ask_triple hP
    intro env w hw _ hSafe
    change if env.available svc then P w else failed w
    split
    · exact hw
    · rename_i hAvailable
      exact hUnavailable env w hw hSafe (Bool.eq_false_iff.mpr hAvailable)
  · intro available
    cases available with
    | false => exact Triple.pure fun w _ hw => hw
    | true =>
      apply Triple.bind_returns (M := fun reply w => if reply = .done then done w else failed w)
      · apply ask_triple hP
        intro env w hw hHonest hSafe
        change if env.reply svc = .done then done (if env.effect svc then w.call svc else w) else failed _
        split
        · rename_i hReply
          rw [if_pos ((hHonest svc rfl).2.mp hReply)]
          exact hDone env w hw hSafe hReply
        · rename_i hReply
          have hEffect : ¬ env.effect svc = true := fun h => hReply ((hHonest svc rfl).2.mpr h)
          simp only [answer, if_neg hEffect]
          exact hFailed env w hw hSafe hReply
      · intro reply
        cases reply with
        | done => exact Triple.pure fun w _ hw => hw
        | exception text => exact Triple.pure fun w _ hw => hw
        | timeout => exact Triple.pure fun w _ hw => hw

theorem settled_stable : rules.Stable () Settled := fun _ _ _ h hs => h.2.2 hs

theorem activity_stable (activity : Activity) : rules.Stable () fun w => w.rtabmap = activity :=
  fun _ _ _ h hs => h.1.trans hs

theorem paused_stable : rules.Stable () fun w => w.mappingState = .paused := by
  intro w w' _ h hw
  exact (h.2.1 (by rw [hw]; decide)).trans hw

theorem settled_congr {w w' : World} (hActivity : w'.rtabmap = w.rtabmap)
    (hState : w'.mappingState = w.mappingState) (hPublished : w'.published = w.published) :
    Settled w' ↔ Settled w := by
  simp only [Settled, Agrees, hActivity, hState, hPublished]

theorem settled_of_uses {α : Type} {p : Program api α} (h : p.Uses Op.Local) :
    Triple sem rules () Settled p fun _ => Settled := by
  apply Triple.of_uses h settled_stable
  intro op hLocal
  apply ask_triple settled_stable
  intro env w hw _ _
  obtain ⟨hActivity, hState, hPublished⟩ := answer_local hLocal env w
  exact (settled_congr hActivity hState hPublished).mpr hw

theorem write_triple {state : MappingState} {activity : Activity}
    (h : ∀ w : World, w.rtabmap = activity → Settled { w with mappingState := state }) :
    Triple sem rules () (fun w => w.rtabmap = activity) (ask (.writeState state)) (Returns fun _ => Settled) :=
  ask_triple (activity_stable activity) fun _ w hw _ _ => h w hw

theorem write_running : Triple sem rules () (fun w => w.rtabmap = .running) (ask (.writeState .running))
    (Returns fun _ => Settled) :=
  write_triple fun w hw => by simp [Settled, Agrees, hw]

theorem write_paused : Triple sem rules () (fun w => w.rtabmap = .paused) (ask (.writeState .paused))
    (Returns fun _ => Settled) :=
  write_triple fun w hw => by simp [Settled, Agrees, hw]

theorem call_triple (svc : Service) (done : World → Prop) (hDone : ∀ w, Settled w → done (w.call svc)) :
    Triple sem rules () Settled (callEmpty svc) (Returns (CallOutcome done Settled)) :=
  callEmpty_triple settled_stable (fun _ w hw _ _ => hDone w hw) (fun _ _ hw _ _ => hw)
    (fun _ _ hw _ _ => hw)

theorem readState_triple :
    Triple sem rules () Settled (ask .readState) (Returns fun _ => Settled) :=
  ask_triple settled_stable fun _ _ hw _ _ => hw

theorem actionStart_triple : Triple sem rules () Settled actionStart fun _ => Settled := by
  apply readState_triple.bind_returns
  intro state
  split
  · exact Triple.pure fun w _ hw => hw
  · apply (call_triple .resume (·.rtabmap = .running) fun w _ => rfl).bind_returns
    rintro ⟨ok, msg⟩
    cases ok with
    | false => exact Triple.pure fun w _ hw => hw
    | true => exact write_running.bind_returns fun _ => Triple.pure fun w _ hw => hw

theorem actionPause_triple : Triple sem rules () Settled actionPause fun _ => Settled := by
  apply readState_triple.bind_returns
  intro state
  split
  · exact Triple.pure fun w _ hw => hw
  · apply (call_triple .pause (·.rtabmap = .paused) fun w _ => rfl).bind_returns
    rintro ⟨ok, msg⟩
    cases ok with
    | false => exact Triple.pure fun w _ hw => hw
    | true => exact write_paused.bind_returns fun _ => Triple.pure fun w _ hw => hw

theorem actionNewMap_triple : Triple sem rules () Settled actionNewMap fun _ => Settled := by
  apply (call_triple .trigger Settled fun w hw => hw).bind_returns
  rintro ⟨ok, msg⟩
  apply Triple.pure
  intro w _ hw
  cases ok <;> exact hw

/-- Before the reset: settled, or resumed while still recorded as paused. -/
def BeforeReset (w : World) : Prop := Settled w ∨ (w.mappingState = .paused ∧ w.rtabmap = .running)

theorem beforeReset_stable : rules.Stable () BeforeReset := by
  rintro w w' hInv h (hw | ⟨hState, hActivity⟩)
  · exact .inl (settled_stable w w' hInv h hw)
  · exact .inr ⟨paused_stable w w' hInv h hState, h.1.trans hActivity⟩

theorem BeforeReset.settled {w : World} (h : BeforeReset w) (hFail : MayFail w) : Settled w := by
  rcases h with h | ⟨hState, hActivity⟩
  · exact h
  · have hPaused := hFail hState
    rw [hActivity] at hPaused
    cases hPaused

theorem resumeBeforeReset_triple :
    Triple sem rules () (fun w => Settled w ∧ w.mappingState = .paused) (resumeBeforeReset true)
      (Returns fun _ => BeforeReset) := by
  have hStable : rules.Stable () fun w => Settled w ∧ w.mappingState = .paused :=
    fun w w' hInv h hw => ⟨settled_stable w w' hInv h hw.1, paused_stable w w' hInv h hw.2⟩
  have hCall : Triple sem rules () (fun w => Settled w ∧ w.mappingState = .paused) (callEmpty .resume)
      (Returns (CallOutcome BeforeReset BeforeReset)) :=
    callEmpty_triple hStable (fun _ w hw _ _ => .inr ⟨hw.2, rfl⟩) (fun _ _ hw _ _ => .inl hw.1)
      (fun _ _ hw _ _ => .inl hw.1)
  apply hCall.bind_returns
  rintro ⟨ok, msg⟩
  have hSleep : Triple sem rules () BeforeReset (ask .sleep) (Returns fun _ => BeforeReset) :=
    ask_triple beforeReset_stable fun _ _ hw _ _ => hw
  apply hSleep.consequence
  · intro w _ hw
    cases ok <;> exact hw
  · exact fun r w _ hw => hw

theorem actionReset_triple : Triple sem rules () Settled actionReset fun _ => Settled := by
  have hRead : Triple sem rules () Settled (ask .readState)
      (Returns fun state w => Settled w ∧ (state = .paused → w.mappingState = .paused)) :=
    ask_triple settled_stable fun _ _ hw _ _ => ⟨hw, id⟩
  apply hRead.bind_returns
  intro state
  apply Triple.bind_returns (M := fun _ => BeforeReset)
  · by_cases hState : state = .paused
    · subst hState
      exact resumeBeforeReset_triple.consequence (fun w _ hw => ⟨hw.1, hw.2 rfl⟩) fun r w _ hw => hw
    · simp only [hState, decide_false]
      exact Triple.pure fun w _ hw => .inl hw.1
  · intro _
    have hCall : Triple sem rules () BeforeReset (callEmpty .reset)
        (Returns (CallOutcome (·.rtabmap = .running) Settled)) := by
      apply callEmpty_triple beforeReset_stable
      · intro env w _ hSafe hReply
        change w.rtabmap = .running
        simpa only [if_pos hReply] using hSafe.2 rfl
      · intro env w hw hSafe hReply
        exact hw.settled (by simpa only [if_neg hReply] using hSafe.2 rfl)
      · intro env w hw hSafe hAvailable
        exact hw.settled (hSafe.1 rfl hAvailable)
    apply hCall.bind_returns
    rintro ⟨ok, msg⟩
    cases ok with
    | false => exact Triple.pure fun w _ hw => hw
    | true =>
      have hWrite : Triple sem rules () (·.rtabmap = .running) (ask .resetState)
          (Returns fun _ => Settled) := by
        apply ask_triple (activity_stable .running)
        intro env w hw _ _
        change Settled _
        simp [Settled, Agrees, answer, hw]
      exact hWrite.bind_returns fun _ => Triple.pure fun w _ hw => hw

theorem pauseForExport_triple :
    Triple sem rules () Settled pauseForExport (Returns fun _ => Settled) := by
  apply (call_triple .pause (·.rtabmap = .paused) fun w _ => rfl).bind_returns
  rintro ⟨ok, msg⟩
  cases ok with
  | false => exact Triple.pure fun w _ hw => hw
  | true => exact write_paused

theorem resumeAfterExport_triple (result : Result) :
    Triple sem rules () Settled (resumeAfterExport result) fun _ => Settled := by
  apply (call_triple .resume (·.rtabmap = .running) fun w _ => rfl).bind_returns
  rintro ⟨ok, msg⟩
  cases ok with
  | false => exact Triple.pure fun w _ hw => hw
  | true => exact write_running.bind_returns fun _ => Triple.pure fun w _ hw => hw

theorem settled_bind {α β : Type} {p : Program api α} {f : α → Program api β} (h : p.Uses Op.Local)
    (hf : ∀ value, Triple sem rules () Settled (f value) fun _ => Settled) :
    Triple sem rules () Settled (p >>= f) fun _ => Settled :=
  (settled_of_uses h).bind hf fun _ _ _ hw => hw

theorem actionExport_triple (filename : Value) :
    Triple sem rules () Settled (actionExport filename) fun _ => Settled := by
  apply settled_bind (ask_uses (.isFile rtabmapDb) trivial)
  intro isFile
  split
  · apply settled_bind (exportName_uses filename)
    intro name
    apply readState_triple.bind_returns
    intro state
    dsimp only
    split
    · apply pauseForExport_triple.bind_returns
      intro _
      exact settled_bind (runExport_uses _) fun result => resumeAfterExport_triple result
    · exact settled_of_uses (runExport_uses _)
  · exact Triple.pure fun w _ hw => hw

theorem action_triple (request : Request) : Triple sem rules () Settled request.action fun _ => Settled := by
  cases request with
  | go => exact actionStart_triple
  | pause => exact actionPause_triple
  | restart => exact actionReset_triple
  | newMap => exact actionNewMap_triple
  | «export» filename => exact actionExport_triple filename

end Triples

def refusing (svc : Service) : Env :=
  { obliging with
    reply := fun other => if other = svc then .exception "refused" else .done
    effect := fun other => other ≠ svc }

def unrecorded (activity : Activity) : Pool api Unit World Result where
  shared := ⟨.unknown, 0, 0, activity, [], [], 0⟩
  thread _ := .pure ⟨true, "", none, none, none⟩

theorem unrecorded_initial (activity : Activity) : Initial (unrecorded activity) := ⟨rfl, rfl, rfl⟩

def steps (env : Env) (count : Nat) : List (Label Unit Env Request Event) := List.replicate count (.step () env)

def refusedResume : List (Label Unit Env Request Event) :=
  .start () .pause :: steps obliging 4 ++ .start () .restart :: steps (refusing .resume) 7

def obligedRestart : List (Label Unit Env Request Event) :=
  .start () .pause :: steps obliging 4 ++ .start () .restart :: steps obliging 7

def observe (pool : Pool api Unit World Result) : Bool × World :=
  ((pool.thread ()).outcome?.isSome, pool.shared)

/-- In every run whose resets are safe, the recorded state agrees with rtabmap whenever no
request is in progress. -/
theorem agrees_of_safe_resets {start pool : Pool api Unit World Result} (hStart : Initial start)
    (hRun : Reaches machine.next (StepsOk AssumedSafe) start pool)
    (hIdle : (pool.thread ()).outcome?.isSome) : Agrees pool.shared := by
  have hSettled : Settled start.shared := by
    simp [Settled, Agrees, hStart.unknown, hStart.quiet]
  have hProof : machine.Proof rules (StepsOk AssumedSafe) fun _ _ => Settled :=
    { stable := fun _ _ => settled_stable
      allowed := fun pool i choice op next hOk hOp => hOk.allowed hOp
      start := fun pool i call r _ _ _ hw => action_triple call pool.shared trivial hw
      env := fun pool event w _ _ hEvent => ⟨trivial, fun _ => interferes_of_event hEvent⟩ }
  have hSafe : start.Safe machine rules fun _ _ => Settled := by
    refine ⟨trivial, ?_⟩
    intro i
    have hThread := hStart.idle
    cases h : start.thread i with
    | pure value => exact hSettled
    | throw exc => exact hSettled
    | request op next => rw [h] at hThread; cases hThread
  obtain ⟨r, hr⟩ := Option.isSome_iff_exists.mp hIdle
  exact ((machine.sound hProof hSafe hRun).finished hr).1

theorem agrees_of_safe_resets_restart :
    ∃ pool, Reaches machine.next (StepsOk AssumedSafe) (unrecorded .running) pool ∧
      pool.shared.mappingState = .running ∧ Agrees pool.shared := by
  have hReplay : (replay machine.next (StepsOk AssumedSafe) obligedRestart (unrecorded .running)).map observe =
      some (true, ⟨.running, 0, 0, .running, [], [], 0⟩) := by decide
  obtain ⟨pool, hRun, hPool⟩ := Reaches.of_observed _ _ hReplay
  refine ⟨pool, hRun, ?_, agrees_of_safe_resets (unrecorded_initial .running) hRun (congrArg Prod.fst hPool)⟩
  rw [show pool.shared = _ from congrArg Prod.snd hPool]

theorem stateAgreement_refused_resume : ¬ StateAgreement := by
  intro hClaim
  have hReplay : (replay machine.next (StepsOk Assumed) refusedResume (unrecorded .running)).map observe =
      some (true, ⟨.running, 0, 0, .paused, [], [], 0⟩) := by decide
  obtain ⟨pool, hRun, hPool⟩ := Reaches.of_observed _ _ hReplay
  have hAgrees := hClaim _ pool (unrecorded_initial .running) hRun (congrArg Prod.fst hPool)
  rw [show pool.shared = _ from congrArg Prod.snd hPool] at hAgrees
  exact absurd (hAgrees.1 rfl) (by decide)

end RoveMapping.MappingApi
