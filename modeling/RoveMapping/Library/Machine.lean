import Mathlib.Logic.Function.Basic
import Mathlib.Logic.Relation
import RoveMapping.Library.Interference

/-! # Runs of a pool of threads

A machine interleaves, in any order, the operations of its threads, the start of a new program
on a thread that has finished, and events of the environment. `Machine.sound` turns a safety
proof of each program into an invariant of every run.
-/
namespace Resumption
set_option autoImplicit false

/-- States linked by any number of steps, each with a label that `ok` admits there. -/
def Reaches {κ ℓ : Type} (next : κ → ℓ → Option κ) (ok : κ → ℓ → Prop) : κ → κ → Prop :=
  Relation.ReflTransGen fun k k' => ∃ l, ok k l ∧ next k l = some k'

def replay {κ ℓ : Type} (next : κ → ℓ → Option κ) (ok : κ → ℓ → Prop) [∀ k l, Decidable (ok k l)] :
    List ℓ → κ → Option κ
  | [], k => some k
  | l :: rest, k => if ok k l then (next k l).bind (replay next ok rest) else none

theorem Reaches.of_replay {κ ℓ : Type} {next : κ → ℓ → Option κ} {ok : κ → ℓ → Prop}
    [∀ k l, Decidable (ok k l)] {labels : List ℓ} {k k' : κ}
    (h : replay next ok labels k = some k') : Reaches next ok k k' := by
  induction labels generalizing k with
  | nil => cases h; exact .refl
  | cons l rest ih =>
    rw [replay] at h
    split at h
    · rename_i hOk
      obtain ⟨k₁, hNext, hRest⟩ := Option.bind_eq_some_iff.mp h
      exact .head ⟨l, hOk, hNext⟩ (ih hRest)
    · cases h

theorem Reaches.mono {κ ℓ : Type} {next : κ → ℓ → Option κ} {ok ok' : κ → ℓ → Prop} {k k' : κ}
    (h : Reaches next ok k k') (hOk : ∀ k l, ok k l → ok' k l) : Reaches next ok' k k' := by
  refine Relation.ReflTransGen.mono ?_ _ _ h
  rintro k₁ k₂ ⟨l, hl, hNext⟩
  exact ⟨l, hOk k₁ l hl, hNext⟩

theorem Reaches.of_observed {κ ℓ β : Type} {next : κ → ℓ → Option κ} {ok : κ → ℓ → Prop}
    [∀ k l, Decidable (ok k l)] {k : κ} {b : β} (labels : List ℓ) (observe : κ → β)
    (h : (replay next ok labels k).map observe = some b) : ∃ k', Reaches next ok k k' ∧ observe k' = b := by
  obtain ⟨k', hReplay, hObserve⟩ := Option.map_eq_some_iff.mp h
  exact ⟨k', .of_replay hReplay, hObserve⟩

structure Pool (S : Signature) (ι σ ρ : Type) where
  shared : σ
  thread : ι → Program S ρ

inductive Label (ι χ π η : Type) where
  | step (i : ι) (choice : χ)
  | start (i : ι) (call : π)
  | env (event : η)

structure Machine (S : Signature) (ι σ χ π η ρ : Type) where
  sem : Semantics S ι σ χ
  entry : ι → π → Program S ρ
  env : η → σ → Option σ

variable {S : Signature} {ι σ χ π η ρ : Type}

def Pool.Safe (M : Machine S ι σ χ π η ρ) (R : Rules S ι σ χ) (post : ι → Except S.Exc ρ → σ → Prop)
    (pool : Pool S ι σ ρ) : Prop :=
  R.inv pool.shared ∧ ∀ i, Resumption.Safe M.sem R i (pool.thread i) (post i) pool.shared

variable {M : Machine S ι σ χ π η ρ} {R : Rules S ι σ χ} {post : ι → Except S.Exc ρ → σ → Prop}

theorem Pool.Safe.demand {pool : Pool S ι σ ρ} (h : pool.Safe M R post) {i : ι} {op : S.Op}
    {next : Except S.Exc (S.Ans op) → Program S ρ} (hOp : pool.thread i = .request op next) :
    R.demand i op pool.shared := by
  have hThread := h.2 i
  rw [hOp] at hThread
  exact (hThread pool.shared (R.refl i _) h.1).1

theorem Pool.Safe.finished {pool : Pool S ι σ ρ} (h : pool.Safe M R post) {i : ι}
    {r : Except S.Exc ρ} (hr : (pool.thread i).outcome? = some r) : post i r pool.shared :=
  (h.2 i).outcome hr

/-- Labels whose operation, if any, meets a condition on the operation and the state. -/
def StepsOk (f : ι → S.Op → χ → σ → Prop) (pool : Pool S ι σ ρ) : Label ι χ π η → Prop
  | .step i choice => ∀ op ∈ (pool.thread i).pending?, f i op choice pool.shared
  | _ => True

instance (f : ι → S.Op → χ → σ → Prop) [∀ i op choice s, Decidable (f i op choice s)]
    (pool : Pool S ι σ ρ) (l : Label ι χ π η) : Decidable (StepsOk f pool l) :=
  match l with
  | .step i choice => inferInstanceAs (Decidable (∀ op ∈ (pool.thread i).pending?, f i op choice pool.shared))
  | .start _ _ | .env _ => inferInstanceAs (Decidable True)

theorem StepsOk.allowed {f : ι → S.Op → χ → σ → Prop} {pool : Pool S ι σ ρ} {i : ι} {choice : χ}
    {op : S.Op} {next : Except S.Exc (S.Ans op) → Program S ρ}
    (h : StepsOk (π := π) (η := η) f pool (.step i choice)) (hOp : pool.thread i = .request op next) :
    f i op choice pool.shared :=
  h op (by rw [hOp]; rfl)

variable [DecidableEq ι]

def Machine.next (M : Machine S ι σ χ π η ρ) (pool : Pool S ι σ ρ) : Label ι χ π η → Option (Pool S ι σ ρ)
  | .step i choice =>
    match pool.thread i with
    | .request op next => (M.sem i op choice pool.shared).map fun (answer, shared) =>
        ⟨shared, Function.update pool.thread i (next answer)⟩
    | _ => none
  | .start i call =>
    if (pool.thread i).outcome?.isSome then
      some { pool with thread := Function.update pool.thread i (M.entry i call) }
    else none
  | .env event => (M.env event pool.shared).map fun shared => { pool with shared := shared }

section Runs

variable {M : Machine S ι σ χ π η ρ} {ok : Pool S ι σ ρ → Label ι χ π η → Prop} {origin : Pool S ι σ ρ}
variable {thread : ι → Program S ρ} {i : ι} {s t : σ}

theorem Reaches.start {pool : Pool S ι σ ρ} (h : Reaches M.next ok origin pool) (i : ι) (call : π)
    (hDone : (pool.thread i).outcome?.isSome) (hOk : ok pool (.start i call)) :
    Reaches M.next ok origin ⟨pool.shared, Function.update pool.thread i (M.entry i call)⟩ :=
  h.tail ⟨.start i call, hOk, by simp only [Machine.next, hDone, if_true]⟩

theorem Reaches.step {op : S.Op} {next : Except S.Exc (S.Ans op) → Program S ρ} {answer : Except S.Exc (S.Ans op)}
    (h : Reaches M.next ok origin ⟨s, Function.update thread i (.request op next)⟩) (choice : χ)
    (hOk : ok ⟨s, Function.update thread i (.request op next)⟩ (.step i choice))
    (hSem : M.sem i op choice s = some (answer, t)) :
    Reaches M.next ok origin ⟨t, Function.update thread i (next answer)⟩ := by
  refine h.tail ⟨.step i choice, hOk, ?_⟩
  simp only [Machine.next, Function.update_self, hSem, Option.map_some, Function.update_idem]

theorem Reaches.env (h : Reaches M.next ok origin ⟨s, thread⟩) (event : η) (hOk : ok ⟨s, thread⟩ (.env event))
    (hEnv : M.env event s = some t) : Reaches M.next ok origin ⟨t, thread⟩ :=
  h.tail ⟨.env event, hOk, by rw [Machine.next, hEnv, Option.map_some]⟩

theorem Reaches.stepOk {f : ι → S.Op → χ → σ → Prop} {op : S.Op} {next : Except S.Exc (S.Ans op) → Program S ρ}
    {answer : Except S.Exc (S.Ans op)}
    (h : Reaches M.next (StepsOk f) origin ⟨s, Function.update thread i (.request op next)⟩) (choice : χ)
    (hOk : f i op choice s) (hSem : M.sem i op choice s = some (answer, t)) :
    Reaches M.next (StepsOk f) origin ⟨t, Function.update thread i (next answer)⟩ := by
  refine h.step choice (fun pending hPending => ?_) hSem
  simp only [Function.update_self] at hPending
  cases hPending
  exact hOk

/-- Where the environment always makes the same choice, an uninterrupted run of the front of a program
is a part of a run of the machine. -/
theorem Reaches.bind_runs {α : Type} {f : ι → S.Op → χ → σ → Prop} {answer : (op : S.Op) → σ → Except S.Exc (S.Ans op) × σ}
    {choice : χ} (hSem : ∀ op u, M.sem i op choice u = some (answer op u)) (hOk : ∀ op u, f i op choice u)
    {p : Program S α} {rest : α → Program S ρ} {value : α} {ops : List S.Op} (hRuns : p.Runs answer s (.ok value) t ops)
    (h : Reaches M.next (StepsOk f) origin ⟨s, Function.update thread i (p >>= rest)⟩) :
    Reaches M.next (StepsOk f) origin ⟨t, Function.update thread i (rest value)⟩ := by
  induction p generalizing s ops with
  | pure value =>
    cases hRuns
    exact h
  | throw exc => cases hRuns
  | request op next ih =>
    obtain ⟨_, -, hNext⟩ := Program.runs_request.mp hRuns
    exact ih _ hNext (h.stepOk choice (hOk op s) (hSem op s))

end Runs

/-- What a proof about a machine owes: `post` is what a finished thread leaves behind. -/
structure Machine.Proof (M : Machine S ι σ χ π η ρ) (R : Rules S ι σ χ)
    (ok : Pool S ι σ ρ → Label ι χ π η → Prop) (post : ι → Except S.Exc ρ → σ → Prop) : Prop where
  stable : ∀ i r, R.Stable i (post i r)
  allowed : ∀ pool i choice op next, ok pool (.step i choice) → pool.thread i = .request op next →
    R.allowed i op choice pool.shared
  start : ∀ pool i call r, ok pool (.start i call) → (pool.thread i).outcome? = some r →
    R.inv pool.shared → post i r pool.shared → Safe M.sem R i (M.entry i call) (post i) pool.shared
  env : ∀ pool event s, ok pool (.env event) → R.inv pool.shared → M.env event pool.shared = some s →
    R.inv s ∧ ∀ i, R.rely i pool.shared s

variable {ok : Pool S ι σ ρ → Label ι χ π η → Prop}

theorem Pool.Safe.update (hProof : M.Proof R ok post) {pool : Pool S ι σ ρ} (h : pool.Safe M R post)
    {i : ι} {s : σ} {p : Program S ρ} (hGuarantee : R.Guarantee i pool.shared s)
    (hp : Resumption.Safe M.sem R i p (post i) s) :
    Pool.Safe M R post ⟨s, Function.update pool.thread i p⟩ := by
  refine ⟨hGuarantee.1, ?_⟩
  intro j
  by_cases hj : j = i
  · subst hj
    simpa using hp
  · simp only [Function.update_of_ne hj]
    exact (h.2 j).stable (hProof.stable j) (hGuarantee.2 j hj) hGuarantee.1

theorem Pool.Safe.next (hProof : M.Proof R ok post) {pool pool' : Pool S ι σ ρ} {l : Label ι χ π η}
    (h : pool.Safe M R post) (hOk : ok pool l) (hNext : M.next pool l = some pool') :
    pool'.Safe M R post := by
  cases l with
  | step i choice =>
    have hThread := h.2 i
    rw [Machine.next] at hNext
    split at hNext
    · rename_i op next hRequest
      obtain ⟨⟨answer, s⟩, hSem, rfl⟩ := Option.map_eq_some_iff.mp hNext
      rw [hRequest] at hThread
      have hAllowed := hProof.allowed pool i choice op next hOk hRequest
      obtain ⟨_, hStep⟩ := hThread pool.shared (R.refl i _) h.1
      obtain ⟨hGuarantee, hRest⟩ := hStep choice answer s hAllowed hSem
      exact h.update hProof hGuarantee hRest
    · cases hNext
  | start i call =>
    rw [Machine.next] at hNext
    split at hNext
    · rename_i hDone
      cases hNext
      obtain ⟨r, hr⟩ := Option.isSome_iff_exists.mp hDone
      have hStart := hProof.start pool i call r hOk hr h.1 ((h.2 i).outcome hr)
      exact h.update hProof (.refl R h.1) hStart
    · cases hNext
  | env event =>
    obtain ⟨s, hEnv, rfl⟩ := Option.map_eq_some_iff.mp hNext
    obtain ⟨hInv, hRely⟩ := hProof.env pool event s hOk h.1 hEnv
    exact ⟨hInv, fun i => (h.2 i).stable (hProof.stable i) (hRely i) hInv⟩

theorem Machine.sound (hProof : M.Proof R ok post) {pool pool' : Pool S ι σ ρ}
    (h : pool.Safe M R post) (hRun : Reaches M.next ok pool pool') : pool'.Safe M R post := by
  induction hRun with
  | refl => exact h
  | tail _ hStep ih =>
    obtain ⟨l, hOk, hNext⟩ := hStep
    exact ih.next hProof hOk hNext

end Resumption
