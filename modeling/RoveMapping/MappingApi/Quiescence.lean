import RoveMapping.MappingApi.StateAgreement
import RoveMapping.MappingApi.Export

/-! # The database while it is exported

`actionExport` pauses rtabmap before it runs the subprocess. It goes on when the pause fails, and it
does not pause at all where `paused` is recorded.
-/
namespace RoveMapping.MappingApi
open Resumption
set_option autoImplicit false

/-- The machine while a request is answered: info messages come in, but no other request starts. -/
def exportMachine : Machine api Unit World Env Empty Event Result := ⟨sem, fun _ request => request.elim, onEvent⟩

def exporting (w : World) (filename : Value) : Pool api Unit World Result := ⟨w, fun _ => actionExport filename⟩

/-- The outcome of the pause call: `succeeds`, or it is unavailable or refused. -/
def PauseEnds (succeeds : Bool) (op : Op) (env : Env) : Prop :=
  if succeeds then
    (op = .waitForService .pause → env.available .pause) ∧ (op = .callAsync .pause → env.reply .pause = .done)
  else op = .callAsync .pause → env.reply .pause ≠ .done

def PauseAssumed (succeeds : Bool) (_ : Unit) (op : api.Op) (env : Env) (_ : World) : Prop :=
  Honest op env ∧ PauseEnds succeeds op env

def IsRun : Op → Prop
  | .run _ => True
  | _ => False

def NotRun (op : Op) : Prop := ¬ IsRun op

/-- The steps of a run in which the subprocess is not started. -/
def Unexported (succeeds : Bool) (i : Unit) (op : api.Op) (env : Env) (w : World) : Prop :=
  PauseAssumed succeeds i op env w ∧ NotRun op

/-- In every run of the request rtabmap is paused for as long as the subprocess is pending, and a request
that returns without it is refused. -/
structure Quiescent (succeeds : Bool) (w : World) (filename : Value) : Prop where
  paused : ∀ pool op, Reaches exportMachine.next (StepsOk (PauseAssumed succeeds)) (exporting w filename) pool →
    (pool.thread ()).pending? = some op → IsRun op → pool.shared.rtabmap = .paused
  refused : ∀ pool result, Reaches exportMachine.next (StepsOk (Unexported succeeds)) (exporting w filename) pool →
    (pool.thread ()).outcome? = some (.ok result) → result.ok = false

/-- The pause suffices, is not needed, or is never come to. -/
def PauseSuffices (succeeds : Bool) (w : World) (filename : Value) : Prop :=
  w.file? rtabmapDb = none ∨ filename.nameable = false ∨ w.rtabmap = .paused ∨
    (w.mappingState ≠ .paused ∧ succeeds = true)

/-- What info messages leave alone. -/
def Kept (w w' : World) : Prop :=
  w'.rtabmap = w.rtabmap ∧ w'.files = w.files ∧ (w.mappingState ≠ .paused → w'.mappingState ≠ .paused)

theorem kept_of_event {event : Event} {w w' : World} (h : onEvent event w = some w') : Kept w w' := by
  cases event with
  | publish msg =>
    simp only [onEvent] at h
    split at h
    · cases h
      exact ⟨rfl, rfl, id⟩
    · cases h
  | handle index =>
    obtain ⟨msg, -, rfl⟩ := Option.map_eq_some_iff.mp h
    refine ⟨rfl, rfl, ?_⟩
    intro hState
    simp only [World.onInfo]
    split
    · decide
    · exact hState

def exportRules (demand : Op → World → Prop) (allowed : Unit → api.Op → Env → World → Prop) : Rules api Unit World Env where
  inv _ := True
  rely _ := Kept
  demand _ := demand
  allowed := allowed
  refl _ _ := ⟨rfl, rfl, id⟩
  trans _ _ _ _ hst htu := ⟨htu.1.trans hst.1, htu.2.1.trans hst.2.1, fun h => htu.2.2 (hst.2.2 h)⟩

section Triples

variable {demand : Op → World → Prop} {allowed : Unit → api.Op → Env → World → Prop} {P : World → Prop}

theorem exportAsk_triple {op : Op} {Q : Except Exc op.Ans → World → Prop}
    (hP : (exportRules demand allowed).Stable () P) (hDemand : ∀ w, P w → demand op w)
    (h : ∀ env w, P w → allowed () op env w → Q (answer env w op).1 (answer env w op).2) :
    Triple sem (exportRules demand allowed) () P (ask op) Q := by
  apply Triple.perform hP
  intro w _ hw
  refine ⟨hDemand w hw, ?_⟩
  intro env result w' hAllowed hSem
  obtain ⟨rfl, rfl⟩ := Prod.mk.inj (Option.some.inj hSem)
  exact ⟨⟨trivial, fun _ hj => absurd rfl hj⟩, h env w hw hAllowed⟩

theorem true_stable : (exportRules demand allowed).Stable () fun _ => True := fun _ _ _ _ _ => trivial

theorem paused_kept : (exportRules demand allowed).Stable () fun w => w.rtabmap = .paused :=
  fun _ _ _ h hw => h.1.trans hw

theorem missing_kept : (exportRules demand allowed).Stable () fun w => w.file? rtabmapDb = none := by
  intro w w' _ h hw
  rw [World.file?, h.2.1]
  exact hw

theorem unpaused_kept : (exportRules demand allowed).Stable () fun w => w.mappingState ≠ .paused :=
  fun _ _ _ h hw => h.2.2 hw

theorem frame_triple {α : Type} {p : Program api α} {used : Op → Prop} (hUses : p.Uses used)
    (hP : (exportRules demand allowed).Stable () P) (hDemand : ∀ op w, used op → P w → demand op w)
    (hOp : ∀ op env w, used op → P w → allowed () op env w → P (answer env w op).2) :
    Triple sem (exportRules demand allowed) () P p fun _ => P :=
  Triple.of_uses hUses hP fun op hUsed => exportAsk_triple hP (fun w => hDemand op w hUsed) fun env w => hOp op env w hUsed

end Triples

/-- What is asked of the file system before rtabmap is paused. -/
def Preparing (op : Op) : Prop := op.Local ∧ NotRun op

theorem exportName_preparing (filename : Value) : (exportName filename).Uses Preparing := by
  have hUtcnow : (ask .utcnow).Uses Preparing := (@Program.uses_perform api Preparing .utcnow).mpr ⟨trivial, id⟩
  have hMakedirs : (ask (.makedirs exportDir)).Uses Preparing :=
    (@Program.uses_perform api Preparing (.makedirs exportDir)).mpr ⟨trivial, id⟩
  have hDefault : requestedName.defaultName.Uses Preparing := hUtcnow.bind fun stamp => trivial
  have hRequested : (requestedName filename).Uses Preparing := by
    unfold requestedName
    split
    · split
      · exact hDefault
      · trivial
    · split
      · trivial
      · exact hDefault
  exact hMakedirs.bind fun _ => hRequested.bind fun _ => trivial

theorem callEmpty_notRun (svc : Service) : (callEmpty svc).Uses NotRun := by
  have hWait : (ask (.waitForService svc)).Uses NotRun := (@Program.uses_perform api NotRun (.waitForService svc)).mpr id
  have hCall : (ask (.callAsync svc)).Uses NotRun := (@Program.uses_perform api NotRun (.callAsync svc)).mpr id
  apply hWait.bind
  intro available
  cases available with
  | false => trivial
  | true => exact hCall.bind fun reply => trivial

theorem resumeAfterExport_notRun (result : Result) : (resumeAfterExport result).Uses NotRun := by
  have hWrite : (ask (.writeState .running)).Uses NotRun :=
    (@Program.uses_perform api NotRun (.writeState .running)).mpr id
  apply (callEmpty_notRun .resume).bind
  rintro ⟨ok, msg⟩
  cases ok with
  | false => trivial
  | true => exact hWrite.bind fun _ => trivial

theorem requestedName_of_unnameable {filename : Value} (h : filename.nameable = false) :
    requestedName filename = .throw (.typeError "expected str, bytes or os.PathLike object") := by
  cases filename with
  | str s => cases h
  | null | bool _ | int _ | float _ | list _ | dict _ => exact if_pos (by simpa [Value.nameable] using h)

/-! ## The subprocess runs only while rtabmap is paused -/

section Paused

variable (succeeds : Bool)

def pausedRules : Rules api Unit World Env :=
  exportRules (fun op w => IsRun op → w.rtabmap = .paused) (PauseAssumed succeeds)

variable {succeeds}

theorem notRun_triple {α : Type} {p : Program api α} (hUses : p.Uses NotRun) :
    Triple sem (pausedRules succeeds) () (fun _ => True) p fun _ _ => True :=
  frame_triple hUses true_stable (fun _ _ hNot _ hRun => absurd hRun hNot) fun _ _ _ _ _ _ => trivial

theorem local_triple {α : Type} {p : Program api α} (hUses : p.Uses Op.Local) :
    Triple sem (pausedRules succeeds) () (fun w => w.rtabmap = .paused) p fun _ w => w.rtabmap = .paused :=
  frame_triple hUses paused_kept (fun _ _ _ hw _ => hw) fun _ env w hLocal hw _ => (answer_local hLocal env w).1.trans hw

theorem unpaused_triple (filename : Value) : Triple sem (pausedRules succeeds) () (fun w => w.mappingState ≠ .paused)
    (exportName filename) fun _ w => w.mappingState ≠ .paused := by
  apply frame_triple (exportName_preparing filename) unpaused_kept
  · exact fun _ _ hUsed _ hRun => absurd hRun hUsed.2
  · intro op env w hUsed hw _
    rw [(answer_local hUsed.1 env w).2.1]
    exact hw

/-- From the subprocess on: it runs paused, and nothing after it runs another. -/
theorem runExport_triple (name : String) :
    Triple sem (pausedRules succeeds) () (fun w => w.rtabmap = .paused) (runExport name) fun _ _ => True :=
  (local_triple (runExport_uses name)).consequence (fun _ _ h => h) fun _ _ _ _ => trivial

theorem runAndResume_triple (name : String) :
    Triple sem (pausedRules succeeds) () (fun w => w.rtabmap = .paused) (runExport name >>= resumeAfterExport)
      fun _ _ => True := by
  apply (local_triple (runExport_uses name)).bind
  · intro result
    exact (notRun_triple (resumeAfterExport_notRun result)).pre fun _ _ _ => trivial
  · exact fun _ _ _ _ => trivial

/-- The pause leaves rtabmap paused if it was so wherever the call fails. -/
theorem pauseForExport_paused {P : World → Prop} (hP : (pausedRules succeeds).Stable () P)
    (hUnavailable : ∀ env w, P w → PauseEnds succeeds (.waitForService .pause) env → env.available .pause = false →
      w.rtabmap = .paused)
    (hFailed : ∀ env w, P w → PauseEnds succeeds (.callAsync .pause) env → env.reply .pause ≠ .done →
      w.rtabmap = .paused) :
    Triple sem (pausedRules succeeds) () P pauseForExport (Returns fun _ w => w.rtabmap = .paused) := by
  have hWait : Triple sem (pausedRules succeeds) () P (ask (.waitForService .pause))
      (Returns fun available w => if available then P w else w.rtabmap = .paused) := by
    apply exportAsk_triple hP (fun _ _ => False.elim)
    intro env w hw hAssumed
    change if env.available .pause then P w else w.rtabmap = .paused
    split
    · exact hw
    · rename_i hAvailable
      exact hUnavailable env w hw hAssumed.2 (Bool.eq_false_iff.mpr hAvailable)
  have hCall : Triple sem (pausedRules succeeds) () P (ask (.callAsync .pause))
      (Returns fun _ w => w.rtabmap = .paused) := by
    apply exportAsk_triple hP (fun _ _ => False.elim)
    intro env w hw hAssumed
    change (if env.effect .pause then w.call .pause else w).rtabmap = .paused
    split
    · rfl
    · rename_i hEffect
      exact hFailed env w hw hAssumed.2 fun hReply => hEffect ((hAssumed.1 .pause rfl).2.mp hReply)
  have hWrite : Triple sem (pausedRules succeeds) () (fun w => w.rtabmap = .paused) (ask (.writeState .paused))
      (Returns fun _ w => w.rtabmap = .paused) := exportAsk_triple paused_kept (fun _ _ => False.elim) fun _ _ hw _ => hw
  have hPause : Triple sem (pausedRules succeeds) () P (callEmpty .pause) (Returns fun _ w => w.rtabmap = .paused) := by
    apply hWait.bind_returns
    intro available
    cases available with
    | false => exact Triple.pure fun _ _ hw => hw
    | true => exact hCall.bind_returns fun reply => Triple.pure fun _ _ hw => hw
  apply hPause.bind_returns
  rintro ⟨ok, msg⟩
  cases ok with
  | false => exact Triple.pure fun _ _ hw => hw
  | true => exact hWrite

theorem pauseAgain_triple : Triple sem (pausedRules succeeds) () (fun w => w.rtabmap = .paused) pauseForExport
    (Returns fun _ w => w.rtabmap = .paused) :=
  pauseForExport_paused paused_kept (fun _ _ hw _ _ => hw) fun _ _ hw _ _ => hw

theorem pauseSucceeds_triple :
    Triple sem (pausedRules true) () (fun _ => True) pauseForExport (Returns fun _ w => w.rtabmap = .paused) := by
  apply pauseForExport_paused true_stable
  · intro env w _ hEnds hUnavailable
    have hAvailable : env.available .pause = true := hEnds.1 rfl
    rw [hUnavailable] at hAvailable
    cases hAvailable
  · intro env w _ hEnds hFailed
    exact absurd (hEnds.2 rfl) hFailed

theorem missing_triple (filename : Value) : Triple sem (pausedRules succeeds) () (fun w => w.file? rtabmapDb = none)
    (actionExport filename) fun _ _ => True := by
  have hFile : Triple sem (pausedRules succeeds) () (fun w => w.file? rtabmapDb = none) (ask (.isFile rtabmapDb))
      (Returns fun isFile _ => isFile = false) := by
    apply exportAsk_triple missing_kept (fun _ _ => False.elim)
    intro env w hw _
    change (w.file? rtabmapDb).isSome = false
    rw [hw]
    rfl
  apply hFile.bind_returns
  intro isFile
  cases isFile with
  | false => exact Triple.pure fun _ _ _ => trivial
  | true => exact nofun

theorem unnameable_triple {filename : Value} (h : filename.nameable = false) :
    Triple sem (pausedRules succeeds) () (fun _ => True) (actionExport filename) fun _ _ => True := by
  have hFile : Triple sem (pausedRules succeeds) () (fun _ => True) (ask (.isFile rtabmapDb))
      (Returns fun _ _ => True) := exportAsk_triple true_stable (fun _ _ => False.elim) fun _ _ _ _ => trivial
  have hMakedirs : Triple sem (pausedRules succeeds) () (fun _ => True) (ask (.makedirs exportDir)) fun _ _ => True :=
    exportAsk_triple true_stable (fun _ _ => False.elim) fun _ _ _ _ => trivial
  have hName : Triple sem (pausedRules succeeds) () (fun _ => True) (exportName filename)
      fun r _ => ∃ exc, r = .error exc := by
    apply hMakedirs.bind
    · intro _
      rw [requestedName_of_unnameable h]
      exact Triple.throw fun _ _ _ => ⟨_, rfl⟩
    · exact fun exc _ _ _ => ⟨exc, rfl⟩
  apply hFile.bind_returns
  intro isFile
  cases isFile with
  | false => exact Triple.pure fun _ _ _ => trivial
  | true =>
    apply hName.bind
    · rintro name w _ ⟨exc, hExc⟩
      cases hExc
    · exact fun _ _ _ _ => trivial

theorem alreadyPaused_triple (filename : Value) : Triple sem (pausedRules succeeds) () (fun w => w.rtabmap = .paused)
    (actionExport filename) fun _ _ => True := by
  have hRead : Triple sem (pausedRules succeeds) () (fun w => w.rtabmap = .paused) (ask .readState)
      (Returns fun _ w => w.rtabmap = .paused) := exportAsk_triple paused_kept (fun _ _ => False.elim) fun _ _ hw _ => hw
  apply (local_triple (ask_uses (.isFile rtabmapDb) trivial)).bind
  · intro isFile
    cases isFile with
    | false => exact Triple.pure fun _ _ _ => trivial
    | true =>
      apply (local_triple (exportName_uses filename)).bind
      · intro name
        apply hRead.bind_returns
        intro state
        dsimp only
        split
        · exact pauseAgain_triple.bind_returns fun _ => runAndResume_triple name
        · exact runExport_triple name
      · exact fun _ _ _ _ => trivial
  · exact fun _ _ _ _ => trivial

theorem pausable_triple (filename : Value) : Triple sem (pausedRules true) () (fun w => w.mappingState ≠ .paused)
    (actionExport filename) fun _ _ => True := by
  have hFile : Triple sem (pausedRules true) () (fun w => w.mappingState ≠ .paused) (ask (.isFile rtabmapDb))
      (Returns fun _ w => w.mappingState ≠ .paused) := exportAsk_triple unpaused_kept (fun _ _ => False.elim) fun _ _ hw _ => hw
  have hRead : Triple sem (pausedRules true) () (fun w => w.mappingState ≠ .paused) (ask .readState)
      (Returns fun state _ => state ≠ .paused) := exportAsk_triple unpaused_kept (fun _ _ => False.elim) fun _ _ hw _ => hw
  apply hFile.bind_returns
  intro isFile
  cases isFile with
  | false => exact Triple.pure fun _ _ _ => trivial
  | true =>
    apply (unpaused_triple filename).bind
    · intro name
      apply hRead.bind_returns
      intro state
      cases state with
      | running | unknown =>
        exact (pauseSucceeds_triple.bind_returns fun _ => runAndResume_triple name).pre fun _ _ _ => trivial
      | paused => exact fun w _ hw => absurd rfl hw
    · exact fun _ _ _ _ => trivial

theorem paused_of_suffices {w : World} {filename : Value} (h : PauseSuffices succeeds w filename) :
    Safe sem (pausedRules succeeds) () (actionExport filename) (fun _ _ => True) w := by
  rcases h with hMissing | hUnnameable | hPaused | ⟨hRecorded, rfl⟩
  · exact missing_triple filename w trivial hMissing
  · exact unnameable_triple hUnnameable w trivial trivial
  · exact alreadyPaused_triple filename w trivial hPaused
  · exact pausable_triple filename w trivial hRecorded

end Paused

/-! ## A request that starts no subprocess is refused -/

def unexportedRules (succeeds : Bool) : Rules api Unit World Env := exportRules (fun _ _ => True) (Unexported succeeds)

section Refused

variable {succeeds : Bool}

theorem any_triple {α : Type} (p : Program api α) :
    Triple sem (unexportedRules succeeds) () (fun _ => True) p (Delivers fun _ _ => True) := by
  have hUses : p.Uses fun _ => True := by
    induction p with
    | pure value => trivial
    | throw exc => trivial
    | request op next ih => exact ⟨trivial, ih⟩
  refine (frame_triple hUses true_stable (fun _ _ _ _ => trivial) fun _ _ _ _ _ _ => trivial).consequence
    (fun _ _ h => h) ?_
  intro r w _ _
  cases r <;> trivial

theorem unreached_triple (name : String) : Triple sem (unexportedRules succeeds) () (fun _ => True) (runExport name)
    (Delivers fun _ _ => False) := by
  have hRun : Triple sem (unexportedRules succeeds) () (fun _ => True) (ask (.run (exportCmd name)))
      fun _ _ => False := exportAsk_triple true_stable (fun _ _ => trivial) fun _ _ _ hAllowed => hAllowed.2 trivial
  apply (any_triple (ask .time)).bind_delivers
  intro t0
  apply hRun.attempt.bind
  · exact fun outcome w _ hw => hw.elim
  · exact fun _ _ _ hw => hw.elim

theorem refused_triple (filename : Value) : Triple sem (unexportedRules succeeds) () (fun _ => True) (actionExport filename)
    (Delivers fun result _ => result.ok = false) := by
  apply (any_triple _).bind_delivers
  intro isFile
  cases isFile with
  | false => exact Triple.pure fun _ _ _ => rfl
  | true =>
    apply (any_triple (exportName filename)).bind_delivers
    intro name
    apply (any_triple _).bind_delivers
    intro state
    dsimp only
    split
    · apply (any_triple pauseForExport).bind_delivers
      intro _
      exact (unreached_triple name).bind_delivers fun result w _ hw => hw.elim
    · exact (unreached_triple name).consequence (fun _ _ h => h) fun r w _ hr => by
        cases r with
        | ok result => exact hr.elim
        | error exc => trivial

end Refused

/-! ## Runs -/

theorem exportMachine_proof {demand : Op → World → Prop} {allowed : Unit → api.Op → Env → World → Prop}
    {post : Result → Prop} : exportMachine.Proof (exportRules demand allowed) (StepsOk allowed)
      fun _ => Delivers fun result _ => post result where
  stable i r w w' _ _ hw := by
    cases r with
    | ok result => exact hw
    | error exc => trivial
  allowed pool i choice op next hOk hOp := hOk.allowed hOp
  start pool i request := request.elim
  env pool event w _ _ hEvent := ⟨trivial, fun _ => kept_of_event hEvent⟩

theorem exporting_sound {demand : Op → World → Prop} {allowed : Unit → api.Op → Env → World → Prop}
    {post : Result → Prop} {w : World} {filename : Value} {pool : Pool api Unit World Result}
    (h : Safe sem (exportRules demand allowed) () (actionExport filename) (Delivers fun result _ => post result) w)
    (hRun : Reaches exportMachine.next (StepsOk allowed) (exporting w filename) pool) :
    pool.Safe exportMachine (exportRules demand allowed) fun _ => Delivers fun result _ => post result := by
  have hStart : (exporting w filename).Safe exportMachine (exportRules demand allowed)
      fun _ => Delivers fun result _ => post result := ⟨trivial, fun _ => h⟩
  exact exportMachine.sound exportMachine_proof hStart hRun

theorem quiescent_of_suffices {succeeds : Bool} {w : World} {filename : Value}
    (h : PauseSuffices succeeds w filename) : Quiescent succeeds w filename where
  paused pool op hRun hPending hIsRun := by
    have hStart : Safe sem (pausedRules succeeds) () (actionExport filename) (Delivers fun _ _ => True) w := by
      refine (paused_of_suffices h).mono trivial fun r _ _ _ => ?_
      cases r <;> trivial
    have hSafe := exporting_sound hStart hRun
    cases hThread : pool.thread () with
    | pure value => rw [hThread] at hPending; cases hPending
    | throw exc => rw [hThread] at hPending; cases hPending
    | request op' next =>
      rw [hThread] at hPending
      cases hPending
      exact hSafe.demand hThread hIsRun
  refused pool result hRun hResult :=
    (exporting_sound (refused_triple filename w trivial trivial) hRun).finished hResult

/-- The environment that obliges, with the pause as it was to end. -/
def pauseEnding (succeeds : Bool) : Env := if succeeds then obliging else refusing .pause

theorem pauseAssumed_pauseEnding (succeeds : Bool) (i : Unit) (op : api.Op) (w : World) :
    PauseAssumed succeeds i op (pauseEnding succeeds) w := by
  cases succeeds with
  | true => exact ⟨fun svc _ => ⟨nofun, fun _ => rfl, fun _ => rfl⟩, fun _ => rfl, fun _ => rfl⟩
  | false =>
    refine ⟨?_, fun _ => nofun⟩
    intro svc _
    cases svc <;> exact ⟨nofun, by decide⟩

section Unpaused

variable {succeeds : Bool} {w u : World} {filename : Value} {thread : Unit → Program api Result}

theorem advance {α : Type} {p : Program api α} {rest : α → Program api Result} {value : α} {v : World} {ops : List Op}
    (h : Reaches exportMachine.next (StepsOk (PauseAssumed succeeds)) (exporting w filename)
      ⟨u, Function.update thread () (p >>= rest)⟩)
    (hRuns : p.Runs (pauseEnding succeeds).answer u (.ok value) v ops) :
    Reaches exportMachine.next (StepsOk (PauseAssumed succeeds)) (exporting w filename)
      ⟨v, Function.update thread () (rest value)⟩ :=
  h.bind_runs (fun _ _ => rfl) (fun op v => pauseAssumed_pauseEnding succeeds () op v) hRuns

/-- The clock is read, and the subprocess is next. -/
theorem exists_pending_run {next : Except Exc ℚ → Program api Result} {name : String}
    (hNext : ∀ t0, (next (.ok t0)).pending? = some (.run (exportCmd name)))
    (h : Reaches exportMachine.next (StepsOk (PauseAssumed succeeds)) (exporting w filename)
      ⟨u, Function.update thread () (.request .time next)⟩) (hActivity : u.rtabmap = .running) :
    ∃ pool op, Reaches exportMachine.next (StepsOk (PauseAssumed succeeds)) (exporting w filename) pool ∧
      (pool.thread ()).pending? = some op ∧ IsRun op ∧ pool.shared.rtabmap = .running := by
  have hTime := h.stepOk (pauseEnding succeeds) (pauseAssumed_pauseEnding succeeds () .time u) rfl
  refine ⟨_, .run (exportCmd name), hTime, ?_, trivial, hActivity⟩
  simpa only [Function.update_self] using hNext _

/-- An export that pauses nothing: paused is recorded already, or the pause is refused. -/
theorem exports_unpaused (hDb : (w.file? rtabmapDb).isSome) (hName : filename.nameable = true)
    (hActivity : w.rtabmap = .running) (hPause : w.mappingState = .paused ∨ succeeds = false) :
    ∃ pool op, Reaches exportMachine.next (StepsOk (PauseAssumed succeeds)) (exporting w filename) pool ∧
      (pool.thread ()).pending? = some op ∧ IsRun op ∧ pool.shared.rtabmap = .running := by
  have hStart : Reaches exportMachine.next (StepsOk (PauseAssumed succeeds)) (exporting w filename)
      ⟨w, Function.update (fun _ => actionExport filename) () (actionExport filename)⟩ := by
    rw [Function.update_eq_self]
    exact .refl
  have hFile := ask_runs (pauseEnding succeeds) w (.isFile rtabmapDb)
  simp only [answer, hDb] at hFile
  have hNamed := advance hStart hFile
  simp only [if_true] at hNamed
  have hMakedirs : (pauseEnding succeeds).makedirs = none := by cases succeeds <;> rfl
  obtain ⟨_, _, hNameRuns, ⟨hRaises, -⟩ | ⟨-, rfl⟩⟩ := exportName_probes (pauseEnding succeeds) w filename
  · simp [hMakedirs, hName] at hRaises
  have hState := advance hNamed hNameRuns
  have hRead := advance hState (ask_runs (pauseEnding succeeds) w .readState)
  by_cases hPaused : w.mappingState = .paused
  · rw [if_neg (by simp [hPaused])] at hRead
    exact exists_pending_run (fun _ => rfl) hRead hActivity
  · have hRecorded : w.mappingState = .running ∨ w.mappingState = .unknown := by
      cases hState : w.mappingState with
      | running | unknown => simp
      | paused => exact absurd hState hPaused
    obtain rfl := hPause.resolve_left hPaused
    rw [if_pos hRecorded] at hRead
    obtain ⟨u, _, hPauseRuns, hKept, -⟩ := pauseForExport_runs (pauseEnding false) w
    have hRun := advance hRead hPauseRuns
    have hRefused : ¬ (pauseEnding false).CarriesOut .pause := by decide
    rw [pausedBy, if_neg hRefused, hActivity] at hKept
    exact exists_pending_run (fun _ => rfl) hRun hKept

end Unpaused

theorem suffices_of_quiescent {succeeds : Bool} {w : World} {filename : Value} (h : Quiescent succeeds w filename) :
    PauseSuffices succeeds w filename := by
  unfold PauseSuffices
  by_contra hNot
  simp only [not_or, not_and] at hNot
  obtain ⟨hDb, hName, hActivity, hPause⟩ := hNot
  have hRunning : w.rtabmap = .running := by
    cases hMapper : w.rtabmap with
    | running => rfl
    | paused => exact absurd hMapper hActivity
  have hRefused : w.mappingState = .paused ∨ succeeds = false := by
    rcases Classical.em (w.mappingState = .paused) with hPaused | hPaused
    · exact .inl hPaused
    · exact .inr (by simpa using hPause hPaused)
  obtain ⟨pool, op, hRun, hPending, hIsRun, hUnpaused⟩ := exports_unpaused (Option.isSome_iff_ne_none.mpr hDb)
    (by simpa using hName) hRunning hRefused
  have hPaused := h.paused pool op hRun hPending hIsRun
  rw [hUnpaused] at hPaused
  cases hPaused

/-- The subprocess reads a quiet database exactly when rtabmap was paused before, or the pause was asked
for and succeeded. -/
theorem quiescent_iff (succeeds : Bool) (w : World) (filename : Value) :
    Quiescent succeeds w filename ↔
      w.file? rtabmapDb = none ∨ filename.nameable = false ∨ w.rtabmap = .paused ∨
        (w.mappingState ≠ .paused ∧ succeeds = true) := by
  constructor
  · exact suffices_of_quiescent
  · exact quiescent_of_suffices

/-- A running mapper that refuses the pause is exported while it writes. -/
theorem refused_pause_not_quiescent : ¬ Quiescent false (mapped .running .running) .null := by
  intro h
  rcases suffices_of_quiescent h with hDb | hName | hActivity | ⟨-, hSucceeds⟩
  · exact absurd hDb (by decide)
  · cases hName
  · cases hActivity
  · cases hSucceeds

end RoveMapping.MappingApi
