import RoveMapping.Tuner.TrialWorld

/-! # Sessions that outlive their leader

A process group here is a leader, which may have ended and wait to be reaped, with any number of other
members. They end and start others of themselves, and any step may raise.
-/
namespace RoveMapping.Tuner.TrialRunner.Sessions
open Resumption
set_option autoImplicit false

inductive Leader where
  | running
  | ended (code : Int)
  | reaped (code : Int)
  deriving DecidableEq

structure Session where
  leader : Leader
  others : ℕ
  /-- In `_ACTIVE_PROCS`. -/
  registered : Bool
  deriving DecidableEq

namespace Session

def start : Session := ⟨.running, 0, false⟩

def returncode (s : Session) : Option Int :=
  match s.leader with
  | .running => none
  | .ended code | .reaped code => some code

def reap (s : Session) : Session :=
  match s.leader with
  | .ended code => { s with leader := .reaped code }
  | _ => s

def kill (s : Session) : Session :=
  match s.leader with
  | .running => { s with leader := .ended Signal.sigkill.code, others := 0 }
  | _ => { s with others := 0 }

def enter (s : Session) : Session := { s with registered := true }

def leave (s : Session) : Session := { s with registered := false }

/-- No process of the group is alive. -/
def Over (s : Session) : Prop := s.leader ≠ .running ∧ s.others = 0

def Cleared (s : Session) : Prop := s.Over ∧ s.registered = false

def Reaped (s : Session) : Prop := ∃ code, s.leader = .reaped code

instance (s : Session) : Decidable s.Reaped :=
  match h : s.leader with
  | .reaped code => isTrue ⟨code, h⟩
  | .running | .ended _ => isFalse fun ⟨_, h'⟩ => by
    rw [h] at h'
    cases h'

end Session

/-- The processes by number, and whether an exception has been raised. -/
structure Host where
  sessions : List Session
  raised : Bool

def Host.change (w : Host) (p : ProcId) (f : Session → Session) : Host := { w with sessions := w.sessions.modify p f }

/-- What the environment would answer to each operation; where the state decides the answer, only whether it raises counts. -/
abbrev Answers : Type := (op : runner.Op) → Except Exc op.Ans

/-- Exceptions that an operation only raises when the state makes it. -/
def Decided : Op → Exc → Bool
  | .wait _ _, .timeoutExpired | .getpgid _, .processLookupError | .killpg _ _, .processLookupError => true
  | _, _ => false

def answered (w : Host) : (op : Op) → op.Ans → Option (Except Exc op.Ans × Host)
  | .popen _ _, _ => some (.ok w.sessions.length, { w with sessions := w.sessions ++ [.start] })
  | .register p, _ => some (.ok (), w.change p .enter)
  | .unregister p, _ => some (.ok (), w.change p .leave)
  | .poll p, _ => w.sessions[p]?.map fun s => (.ok s.returncode, w.change p .reap)
  | .getpgid p, _ => w.sessions[p]?.map fun s => (if s.Reaped then .error .processLookupError else .ok (), w)
  | .killpg p sig, _ => w.sessions[p]?.map fun s =>
      if s.Reaped ∧ s.others = 0 then (.error .processLookupError, w)
      else (.ok (), if sig = .sigkill then w.change p .kill else w)
  | .wait p timeout, _ => w.sessions[p]?.bind fun s =>
      match s.returncode with
      | some code => some (.ok code, w.change p .reap)
      | none => if timeout.isSome then some (.error .timeoutExpired, w) else none
  | _, answer => some (.ok answer, w)

def hostSem : Semantics runner Unit Host Answers := fun _ op answers w =>
  match answers op with
  | .error exc => if Decided op exc then none else some (.error exc, { w with raised := true })
  | .ok answer => answered w op answer

/-- What a group does of itself while a member lives. -/
inductive Stirring where
  | exits (p : ProcId) (code : Int)
  | members (p : ProcId) (count : ℕ)

def Session.exits (code : Int) (s : Session) : Session := if s.leader = .running then { s with leader := .ended code } else s

def Session.populate (count : ℕ) (s : Session) : Session := if s.leader = .running ∨ s.others ≠ 0 then { s with others := count } else s

def stir : Stirring → Host → Option Host
  | .exits p code, w => some (w.change p (.exits code))
  | .members p count, w => some (w.change p (.populate count))

def host : Machine runner Unit Host Answers Empty Stirring (BagRunResult ℚ) := ⟨hostSem, fun _ call => call.elim, stir⟩

/-- The step does not reach a place that cleans up too little: a leader is found ended only when its whole group has, and
in the `finally` block only when it is not registered; an exception comes only when the bag player is gone, and in the `finally`
block only when the launch is as well. -/
def Contained (launch : ProcId) (_ : Unit) (op : runner.Op) (answers : Answers) (w : Host) : Prop :=
  match answers op with
  | .error _ => ∀ p s, w.sessions[p]? = some s → launch < p ∨ p = launch ∧ w.raised = true → s.Cleared
  | .ok _ =>
    match op with
    | .poll p => ∀ s, w.sessions[p]? = some s → s.leader ≠ .running → s.others = 0 ∧ (w.raised = true → s.registered = false)
    | .wait p _ => ∀ s, w.sessions[p]? = some s → s.leader ≠ .running → s.others = 0
    | _ => True

/-! ## What happens of itself -/

/-- The later state of a group that nothing was done to. -/
structure Session.Passes (s s' : Session) : Prop where
  registered : s'.registered = s.registered
  leader : s'.leader = s.leader ∨ s.leader = .running ∧ ∃ code, s'.leader = .ended code
  emptied : s.Over → s'.others = 0

structure Host.Passes (w w' : Host) : Prop where
  raised : w'.raised = w.raised
  count : w'.sessions.length = w.sessions.length
  session : ∀ (p : ProcId) (s' : Session), w'.sessions[p]? = some s' → ∃ s : Session, w.sessions[p]? = some s ∧ s.Passes s'

theorem Session.Passes.refl (s : Session) : s.Passes s := ⟨rfl, .inl rfl, fun h => h.2⟩

theorem Session.Passes.over_of {s s' : Session} (h : s.Passes s') (hOver : s.Over) : s'.Over := by
  refine ⟨fun hRunning => ?_, h.emptied hOver⟩
  obtain hSame | ⟨hBefore, -⟩ := h.leader
  · exact hOver.1 (hSame.symm.trans hRunning)
  · exact hOver.1 hBefore

theorem Session.Passes.trans {s s' s'' : Session} (h : s.Passes s') (h' : s'.Passes s'') : s.Passes s'' where
  registered := h'.registered.trans h.registered
  leader := by
    obtain hSame | ⟨hRunning, code, hEnded⟩ := h.leader
    · rw [← hSame]
      exact h'.leader
    · refine .inr ⟨hRunning, code, ?_⟩
      obtain hSame' | ⟨hRunning', -⟩ := h'.leader
      · exact hSame'.trans hEnded
      · rw [hEnded] at hRunning'
        cases hRunning'
  emptied hOver := h'.emptied (h.over_of hOver)

theorem Session.passes_exits (code : Int) (s : Session) : s.Passes (s.exits code) := by
  unfold Session.exits
  split
  · rename_i hRunning
    exact ⟨rfl, .inr ⟨hRunning, code, rfl⟩, fun h => h.2⟩
  · exact .refl s

theorem Session.passes_populate (count : ℕ) (s : Session) : s.Passes (s.populate count) := by
  unfold Session.populate
  split
  · rename_i hAlive
    refine ⟨rfl, .inl rfl, fun hOver => ?_⟩
    obtain hRunning | hOthers := hAlive
    · exact absurd hRunning hOver.1
    · exact absurd hOver.2 hOthers
  · exact .refl s

theorem Host.Passes.refl (w : Host) : w.Passes w := ⟨rfl, rfl, fun _ s h => ⟨s, h, .refl s⟩⟩

theorem Host.Passes.trans {w w' w'' : Host} (h : w.Passes w') (h' : w'.Passes w'') : w.Passes w'' where
  raised := h'.raised.trans h.raised
  count := h'.count.trans h.count
  session p s'' hs'' := by
    obtain ⟨s', hs', hPasses'⟩ := h'.session p s'' hs''
    obtain ⟨s, hs, hPasses⟩ := h.session p s' hs'
    exact ⟨s, hs, hPasses.trans hPasses'⟩

theorem Host.session_change {w : Host} {p q : ProcId} {f : Session → Session} {s' : Session}
    (h : (w.change p f).sessions[q]? = some s') : ∃ s, w.sessions[q]? = some s ∧ s' = if q = p then f s else s := by
  simp only [Host.change, List.getElem?_modify] at h
  obtain ⟨s, hs, rfl⟩ := Option.map_eq_some_iff.mp h
  refine ⟨s, hs, ?_⟩
  simp only [eq_comm]

theorem Host.passes_change (w : Host) (p : ProcId) {f : Session → Session} (hf : ∀ s : Session, s.Passes (f s)) :
    w.Passes (w.change p f) where
  raised := rfl
  count := List.length_modify _ _ _
  session q s' hs' := by
    obtain ⟨s, hs, rfl⟩ := Host.session_change hs'
    refine ⟨s, hs, ?_⟩
    split
    · exact hf s
    · exact .refl s

theorem passes_stir {stirring : Stirring} {w w' : Host} (h : stir stirring w = some w') : w.Passes w' := by
  cases stirring with
  | exits p code =>
    cases h
    exact w.passes_change p (Session.passes_exits code)
  | members p count =>
    cases h
    exact w.passes_change p (Session.passes_populate count)

def hostRules (launch : ProcId) : Rules runner Unit Host Answers where
  inv _ := True
  rely _ w w' := w.Passes w'
  demand _ _ _ := True
  allowed := Contained launch
  refl _ w := .refl w
  trans _ _ _ _ h h' := h.trans h'

/-! ## What is known of each group -/

/-- Facts about groups that stay true while nothing is done to them. -/
def Lasting (known : ProcId → Session → Prop) : Prop := ∀ p s s', s.Passes s' → known p s → known p s'

structure Stage (launch : ProcId) (raised : Bool) (known : ProcId → Session → Prop) (w : Host) : Prop where
  started : launch < w.sessions.length
  raised : w.raised = raised
  known : ∀ p s, launch ≤ p → w.sessions[p]? = some s → known p s

/-- An exception is on its way: the bag player is gone, and in the `finally` block the launch is as well. -/
def Failed (launch : ProcId) (raised : Bool) : Host → Prop :=
  Stage launch true fun p s => launch < p ∨ raised = true → s.Cleared

/-- The program returns with `post`, or an exception is on its way. -/
def Ends {α : Type} (launch : ProcId) (raised : Bool) (post : α → Host → Prop) : Except Exc α → Host → Prop
  | .ok value, w => post value w
  | .error _, w => Failed launch raised w

def Session.Unreaped (s : Session) : Prop := ¬s.Reaped

def AllCleared (_ : ProcId) (s : Session) : Prop := s.Cleared

theorem Session.Passes.cleared {s s' : Session} (h : s.Passes s') (hCleared : s.Cleared) : s'.Cleared :=
  ⟨h.over_of hCleared.1, h.registered.trans hCleared.2⟩

theorem Session.Passes.unreaped {s s' : Session} (h : s.Passes s') (hUnreaped : s.Unreaped) : s'.Unreaped := by
  rintro ⟨code, hReaped⟩
  obtain hSame | ⟨-, code', hEnded⟩ := h.leader
  · exact hUnreaped ⟨code, hSame.symm.trans hReaped⟩
  · rw [hEnded] at hReaped
    cases hReaped

theorem lasting_allCleared : Lasting AllCleared := fun _ _ _ hPasses h => hPasses.cleared h

theorem Lasting.update {known : ProcId → Session → Prop} {fact : Session → Prop} (h : Lasting known)
    (hFact : ∀ s s', s.Passes s' → fact s → fact s') (p : ProcId) : Lasting (Function.update known p fact) := by
  intro q s s' hPasses hs
  by_cases hq : q = p
  · subst hq
    rw [Function.update_self] at hs ⊢
    exact hFact s s' hPasses hs
  · rw [Function.update_of_ne hq] at hs ⊢
    exact h q s s' hPasses hs

theorem Stage.mono {launch : ProcId} {raised : Bool} {known known' : ProcId → Session → Prop} {w : Host}
    (h : Stage launch raised known w) (hKnown : ∀ p s, launch ≤ p → known p s → known' p s) : Stage launch raised known' w :=
  ⟨h.started, h.raised, fun p s hp hs => hKnown p s hp (h.known p s hp hs)⟩

theorem Lasting.stable {launch : ProcId} {raised : Bool} {known : ProcId → Session → Prop} (h : Lasting known) :
    (hostRules launch).Stable () (Stage launch raised known) := by
  rintro w w' - hPasses hStage
  refine ⟨hPasses.count ▸ hStage.started, hPasses.raised.trans hStage.raised, fun p s' hp hs' => ?_⟩
  obtain ⟨s, hs, hSession⟩ := hPasses.session p s' hs'
  exact h p s s' hSession (hStage.known p s hp hs)

section Steps

variable {launch p : ProcId} {raised : Bool} {known : ProcId → Session → Prop} {fact fact' : Session → Prop} {w w' : Host}

theorem Stage.change (h : Stage launch raised (Function.update known p fact) w) {f : Session → Session}
    (hf : ∀ s, w.sessions[p]? = some s → fact s → fact' (f s)) :
    Stage launch raised (Function.update known p fact') (w.change p f) := by
  refine ⟨by simpa [Host.change] using h.started, h.raised, fun q s' hq hs' => ?_⟩
  obtain ⟨s, hs, rfl⟩ := Host.session_change hs'
  have hKnown := h.known q s hq hs
  by_cases hEq : q = p
  · subst hEq
    rw [Function.update_self] at hKnown ⊢
    rw [if_pos rfl]
    exact hf s hs hKnown
  · rw [Function.update_of_ne hEq] at hKnown ⊢
    rw [if_neg hEq]
    exact hKnown

theorem Stage.learn (h : Stage launch raised (Function.update known p fact) w)
    (hf : ∀ s, w.sessions[p]? = some s → fact s → fact' s) : Stage launch raised (Function.update known p fact') w := by
  refine ⟨h.started, h.raised, fun q s hq hs => ?_⟩
  have hKnown := h.known q s hq hs
  by_cases hEq : q = p
  · subst hEq
    rw [Function.update_self] at hKnown ⊢
    exact hf s hs hKnown
  · rw [Function.update_of_ne hEq] at hKnown ⊢
    exact hKnown

theorem Stage.holds (h : Stage launch raised (Function.update known p fact) w) (hp : launch ≤ p) {s : Session}
    (hs : w.sessions[p]? = some s) : fact s := by
  have hKnown := h.known p s hp hs
  rwa [Function.update_self] at hKnown

theorem failed_of_raise {op : runner.Op} {answers : Answers} {exc : Exc} (h : Stage launch raised known w)
    (hContained : Contained launch () op answers w) (hRaise : answers op = .error exc) :
    Failed launch raised { w with raised := true } := by
  unfold Contained at hContained
  rw [hRaise] at hContained
  refine ⟨h.started, rfl, fun p s hp hs hAny => hContained p s hs ?_⟩
  obtain hLater | hAgain := hAny
  · exact .inl hLater
  · rcases Nat.eq_or_lt_of_le hp with hEq | hLater
    · exact .inr ⟨hEq.symm, h.raised.trans hAgain⟩
    · exact .inl hLater

/-- One operation: it raises, or the state answers. -/
theorem perform_triple {op : Op} {P : Host → Prop} {Q : Except Exc op.Ans → Host → Prop} (hP : (hostRules launch).Stable () P)
    (hRaise : ∀ w answers exc, P w → Contained launch () op answers w → answers op = .error exc → Decided op exc = false →
      Q (.error exc) { w with raised := true })
    (hAnswer : ∀ w answers answer r w', P w → answers op = .ok answer → Contained launch () op answers w →
      answered w op answer = some (r, w') → Q r w') :
    Triple hostSem (hostRules launch) () P (ask op) Q := by
  refine Triple.perform hP fun w _ hw => ⟨trivial, fun answers r w' hContained hSem => ?_⟩
  refine ⟨⟨trivial, fun j hj => absurd rfl hj⟩, ?_⟩
  unfold hostSem at hSem
  split at hSem
  · rename_i exc hError
    split at hSem
    · cases hSem
    · rename_i hOwn
      cases hSem
      exact hRaise w answers exc hw hContained hError (by simpa using hOwn)
  · rename_i answer hOk
    exact hAnswer w answers answer r w' hw hOk hContained hSem

theorem host_triple {op : Op} {Q : Except Exc op.Ans → Host → Prop} (hKnown : Lasting known)
    (hRaise : ∀ w exc, Decided op exc = false → Failed launch raised w → Q (.error exc) w)
    (hAnswer : ∀ w answers answer r w', Stage launch raised known w → answers op = .ok answer →
      Contained launch () op answers w → answered w op answer = some (r, w') → Q r w') :
    Triple hostSem (hostRules launch) () (Stage launch raised known) (ask op) Q :=
  perform_triple hKnown.stable
    (fun _ _ exc hw hContained hError hOwn => hRaise _ exc hOwn (failed_of_raise hw hContained hError)) hAnswer

/-! ## The operations -/

def Plain : Op → Prop
  | .popen _ _ | .register _ | .unregister _ | .poll _ | .getpgid _ | .killpg _ _ | .wait _ _ => False
  | _ => True

theorem answered_plain {op : Op} (hOp : Plain op) {answer : op.Ans} {r : Except Exc op.Ans}
    (h : answered w op answer = some (r, w')) : r = .ok answer ∧ w' = w := by
  cases op <;> cases hOp <;> cases h <;> exact ⟨rfl, rfl⟩

theorem plain_triple {op : Op} (hOp : Plain op) (hKnown : Lasting known) :
    Triple hostSem (hostRules launch) () (Stage launch raised known) (ask op)
      (Ends launch raised fun _ => Stage launch raised known) := by
  refine host_triple hKnown (fun _ _ _ hFailed => hFailed) fun w answers answer r w' hw _ _ hAnswered => ?_
  obtain ⟨rfl, rfl⟩ := answered_plain hOp hAnswered
  exact hw

theorem enter_triple (hKnown : Lasting (Function.update known p fact)) (hEnter : ∀ s, fact s → fact s.enter) :
    Triple hostSem (hostRules launch) () (Stage launch raised (Function.update known p fact)) (ask (.register p))
      (Ends launch raised fun _ => Stage launch raised (Function.update known p fact)) := by
  refine host_triple hKnown (fun _ _ _ hFailed => hFailed) fun w answers answer r w' hw _ _ hAnswered => ?_
  cases hAnswered
  exact hw.change fun s _ hs => hEnter s hs

theorem leave_triple (hKnown : Lasting (Function.update known p Session.Over)) :
    Triple hostSem (hostRules launch) () (Stage launch raised (Function.update known p Session.Over)) (ask (.unregister p))
      (Ends launch raised fun _ => Stage launch raised (Function.update known p Session.Cleared)) := by
  refine host_triple hKnown (fun _ _ _ hFailed => hFailed) fun w answers answer r w' hw _ _ hAnswered => ?_
  cases hAnswered
  exact hw.change fun s _ hOver => ⟨hOver, rfl⟩

theorem returncode_eq_none {s : Session} : s.returncode = none ↔ s.leader = .running := by
  unfold Session.returncode
  split
  · rename_i hRunning
    simp [hRunning]
  · rename_i hEnded
    simp [hEnded]
  · rename_i hReaped
    simp [hReaped]

theorem reap_of_running {s : Session} (h : s.leader = .running) : s.reap = s := by
  simp [Session.reap, h]

theorem reap_over {s : Session} (hLeader : s.leader ≠ .running) (hOthers : s.others = 0) : s.reap.Over := by
  unfold Session.reap
  split
  · exact ⟨nofun, hOthers⟩
  · exact ⟨hLeader, hOthers⟩

theorem reap_registered (s : Session) : s.reap.registered = s.registered := by
  unfold Session.reap
  split <;> rfl

theorem unreaped_of_running {s : Session} (h : s.leader = .running) : s.Unreaped := by
  rintro ⟨code, hReaped⟩
  rw [h] at hReaped
  cases hReaped

def Polled (raised : Bool) : Option Int → Session → Prop
  | none, s => s.Unreaped
  | some _, s => s.Over ∧ (raised = true → s.registered = false)

theorem poll_triple (hKnown : Lasting (Function.update known p fact)) :
    Triple hostSem (hostRules launch) () (Stage launch raised (Function.update known p fact)) (ask (.poll p))
      (Ends launch raised fun code => Stage launch raised (Function.update known p (Polled raised code))) := by
  refine host_triple hKnown (fun _ _ _ hFailed => hFailed) fun w answers answer r w' hw hOk hContained hAnswered => ?_
  obtain ⟨s, hs, hEq⟩ := Option.map_eq_some_iff.mp hAnswered
  cases hEq
  simp only [Contained, hOk] at hContained
  refine hw.change fun s' hs' _ => ?_
  obtain rfl : s = s' := Option.some.inj (hs.symm.trans hs')
  cases hCode : s.returncode with
  | none =>
    have hRunning := returncode_eq_none.mp hCode
    rw [reap_of_running hRunning]
    exact unreaped_of_running hRunning
  | some code =>
    have hLeader : s.leader ≠ .running := fun hRunning => by simp [returncode_eq_none.mpr hRunning] at hCode
    obtain ⟨hOthers, hRegistered⟩ := hContained s hs hLeader
    refine ⟨reap_over hLeader hOthers, fun hAgain => ?_⟩
    rw [reap_registered]
    exact hRegistered (hw.raised.trans hAgain)

/-- Where nothing is lost by reaping, a poll only looks. -/
theorem look_triple (hKnown : Lasting known) (hReap : ∀ s, known p s → known p s.reap) :
    Triple hostSem (hostRules launch) () (Stage launch raised known) (ask (.poll p))
      (Ends launch raised fun _ => Stage launch raised known) := by
  refine host_triple hKnown (fun _ _ _ hFailed => hFailed) fun w answers answer r w' hw _ _ hAnswered => ?_
  obtain ⟨s, hs, hEq⟩ := Option.map_eq_some_iff.mp hAnswered
  cases hEq
  rw [← Function.update_eq_self p known] at hw ⊢
  exact hw.change fun s _ hFact => hReap s hFact

/-! ## Ending a group -/

theorem getpgid_triple (hKnown : Lasting (Function.update known p Session.Unreaped)) (hp : launch ≤ p) :
    Triple hostSem (hostRules launch) () (Stage launch raised (Function.update known p Session.Unreaped)) (ask (.getpgid p))
      fun r w => match r with
        | .ok _ => Stage launch raised (Function.update known p Session.Unreaped) w
        | .error exc => exc ≠ .processLookupError ∧ Failed launch raised w := by
  refine host_triple hKnown (fun w exc hOwn hFailed => ⟨?_, hFailed⟩) fun w answers answer r w' hw _ _ hAnswered => ?_
  · rintro rfl
    cases hOwn
  · obtain ⟨s, hs, hEq⟩ := Option.map_eq_some_iff.mp hAnswered
    rw [if_neg (hw.holds hp hs)] at hEq
    cases hEq
    exact hw

def Signalled (sig : Signal) (s : Session) : Prop := s.Unreaped ∧ (sig = .sigkill → s.Over)

theorem kill_signalled {s : Session} (h : s.Unreaped) : s.kill.Unreaped ∧ s.kill.Over := by
  unfold Session.kill
  split
  · refine ⟨?_, nofun, rfl⟩
    rintro ⟨code, hReaped⟩
    cases hReaped
  · rename_i hRunning
    exact ⟨h, hRunning, rfl⟩

theorem killpg_triple (sig : Signal) (hKnown : Lasting (Function.update known p Session.Unreaped)) (hp : launch ≤ p) :
    Triple hostSem (hostRules launch) () (Stage launch raised (Function.update known p Session.Unreaped)) (ask (.killpg p sig))
      fun r w => match r with
        | .ok _ => Stage launch raised (Function.update known p (Signalled sig)) w
        | .error exc => exc ≠ .processLookupError ∧ Failed launch raised w := by
  refine host_triple hKnown (fun w exc hOwn hFailed => ⟨?_, hFailed⟩) fun w answers answer r w' hw _ _ hAnswered => ?_
  · rintro rfl
    cases hOwn
  · obtain ⟨s, hs, hEq⟩ := Option.map_eq_some_iff.mp hAnswered
    rw [if_neg fun hBoth => hw.holds hp hs hBoth.1] at hEq
    cases hEq
    by_cases hSig : sig = .sigkill
    · simp only [if_pos hSig]
      exact hw.change fun s _ hUnreaped => ⟨(kill_signalled hUnreaped).1, fun _ => (kill_signalled hUnreaped).2⟩
    · simp only [if_neg hSig]
      exact hw.learn fun s _ hUnreaped => ⟨hUnreaped, fun hEq => absurd hEq hSig⟩

theorem wait_triple (timeout : Option ℚ) (hKnown : Lasting (Function.update known p fact)) (hp : launch ≤ p) :
    Triple hostSem (hostRules launch) () (Stage launch raised (Function.update known p fact)) (ask (.wait p timeout))
      fun r w => match r with
        | .ok _ => Stage launch raised (Function.update known p Session.Over) w
        | .error exc => exc = .timeoutExpired ∧ Stage launch raised (Function.update known p fact) w ∧ (∃ s, fact s ∧ ¬s.Over) ∨
            exc ≠ .timeoutExpired ∧ Failed launch raised w := by
  refine host_triple hKnown (fun w exc hOwn hFailed => .inr ⟨?_, hFailed⟩) fun w answers answer r w' hw hOk hContained hAnswered => ?_
  · rintro rfl
    cases hOwn
  · obtain ⟨s, hs, hEq⟩ := Option.bind_eq_some_iff.mp hAnswered
    simp only [Contained, hOk] at hContained
    cases hCode : s.returncode with
    | some code =>
      simp only [hCode] at hEq
      cases hEq
      have hLeader : s.leader ≠ .running := fun hRunning => by simp [returncode_eq_none.mpr hRunning] at hCode
      refine hw.change fun s' hs' _ => ?_
      obtain rfl : s = s' := Option.some.inj (hs.symm.trans hs')
      exact reap_over hLeader (hContained s hs hLeader)
    | none =>
      simp only [hCode] at hEq
      split at hEq
      · cases hEq
        exact .inl ⟨rfl, hw, s, hw.holds hp hs, fun hOver => hOver.1 (returncode_eq_none.mp hCode)⟩
      · cases hEq

theorem Session.Passes.signalled {sig : Signal} {s s' : Session} (h : s.Passes s') (hSignalled : Signalled sig s) :
    Signalled sig s' := ⟨h.unreaped hSignalled.1, fun hSig => h.over_of (hSignalled.2 hSig)⟩

theorem escalate_cons_triple (sig : Signal) (timeout : ℚ) {rest : List (Signal × ℚ)} (hKnown : Lasting known) (hp : launch ≤ p)
    (hRest : sig ≠ .sigkill → Triple hostSem (hostRules launch) () (Stage launch raised (Function.update known p Session.Unreaped))
      (escalate p rest) (Ends launch raised fun _ => Stage launch raised (Function.update known p Session.Over))) :
    Triple hostSem (hostRules launch) () (Stage launch raised (Function.update known p Session.Unreaped))
      (escalate p ((sig, timeout) :: rest))
      (Ends launch raised fun _ => Stage launch raised (Function.update known p Session.Over)) := by
  have hUnreaped := hKnown.update (fun _ _ h => h.unreaped) p
  have hSignalled : Lasting (Function.update known p (Signalled sig)) := hKnown.update (fun _ _ h => h.signalled) p
  apply (killpg_triple sig hUnreaped hp).attempt.bind_returns
  rintro (exc | _)
  · rintro w - ⟨hNotLost, hFailed⟩
    cases exc with
    | processLookupError => exact absurd rfl hNotLost
    | timeoutExpired | osError | template => exact hFailed
  · apply (wait_triple (some timeout) hSignalled hp).attempt.bind_returns
    rintro (exc | code)
    · rintro w - (⟨rfl, hw, s, ⟨-, hKilled⟩, hNotOver⟩ | ⟨hOther, hFailed⟩)
      · -- a group that was sent SIGKILL has no running leader
        exact hRest (fun hSig => hNotOver (hKilled hSig)) w trivial (hw.learn fun s _ h => h.1)
      · cases exc with
        | timeoutExpired => exact absurd rfl hOther
        | processLookupError | osError | template => exact hFailed
    · exact Triple.pure fun w _ hw => hw

theorem escalate_triple (levels : List (Signal × ℚ)) (last : ℚ) (hKnown : Lasting known) (hp : launch ≤ p) :
    Triple hostSem (hostRules launch) () (Stage launch raised (Function.update known p Session.Unreaped))
      (escalate p (levels ++ [(.sigkill, last)]))
      (Ends launch raised fun _ => Stage launch raised (Function.update known p Session.Over)) := by
  induction levels with
  | nil => exact escalate_cons_triple .sigkill last hKnown hp fun hSig => absurd rfl hSig
  | cons level rest ih => exact escalate_cons_triple level.1 level.2 hKnown hp fun _ => ih

theorem terminateProcessGroup_triple (timeout : ℚ) (hKnown : Lasting known) (hp : launch ≤ p) :
    Triple hostSem (hostRules launch) () (Stage launch raised (Function.update known p Session.Unreaped))
      (terminateProcessGroup p timeout)
      (Ends launch raised fun _ => Stage launch raised (Function.update known p Session.Over)) := by
  apply (getpgid_triple (hKnown.update (fun _ _ h => h.unreaped) p) hp).attempt.bind_returns
  rintro (exc | _)
  · rintro w - ⟨hNotLost, hFailed⟩
    cases exc with
    | processLookupError => exact absurd rfl hNotLost
    | timeoutExpired | osError | template => exact hFailed
  · exact escalate_triple [(.sigint, timeout), (.sigterm, 5)] 5 hKnown hp

end Steps

end RoveMapping.Tuner.TrialRunner.Sessions
