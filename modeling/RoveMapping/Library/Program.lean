/-! # Programs as requests to an environment

A program ends with a value, ends with an exception, or requests one operation and continues
with its answer, which may itself be an exception. What an operation does to the shared state
is left to a `Semantics`; several programs may run over one state.
-/
namespace Resumption
set_option autoImplicit false

structure Signature where
  Op : Type
  Ans : Op → Type
  Exc : Type

inductive Program (S : Signature) (α : Type) where
  | pure (value : α)
  | throw (exc : S.Exc)
  | request (op : S.Op) (next : Except S.Exc (S.Ans op) → Program S α)

namespace Program

variable {S : Signature} {α β : Type}

def bind : Program S α → (α → Program S β) → Program S β
  | .pure value, f => f value
  | .throw exc, _ => .throw exc
  | .request op next, f => .request op fun answer => (next answer).bind f

instance : Monad (Program S) where
  pure := .pure
  bind := bind

def ofExcept : Except S.Exc α → Program S α
  | .ok value => .pure value
  | .error exc => .throw exc

def perform (op : S.Op) : Program S (S.Ans op) := .request op ofExcept

/-- The outcome of a program as a value: the body of a `try` statement. -/
def attempt : Program S α → Program S (Except S.Exc α)
  | .pure value => .pure (.ok value)
  | .throw exc => .pure (.error exc)
  | .request op next => .request op fun answer => (next answer).attempt

/-- `try: body finally: final`. An exception of `final` replaces the outcome of `body`. -/
def tryFinally (body : Program S α) (final : Program S Unit) : Program S α :=
  body.attempt.bind fun outcome => final.bind fun _ => ofExcept outcome

def outcome? : Program S α → Option (Except S.Exc α)
  | .pure value => some (.ok value)
  | .throw exc => some (.error exc)
  | .request _ _ => none

def pending? : Program S α → Option S.Op
  | .request op _ => some op
  | _ => none

/-- Every operation the program may request is one of those allowed. -/
def Uses (allowed : S.Op → Prop) : Program S α → Prop
  | .request op next => allowed op ∧ ∀ answer, (next answer).Uses allowed
  | _ => True

section Uses

variable {allowed : S.Op → Prop}

@[simp] theorem uses_ofExcept (r : Except S.Exc α) : (ofExcept r).Uses allowed := by
  cases r <;> trivial

@[simp] theorem uses_perform (op : S.Op) : (perform op).Uses allowed ↔ allowed op :=
  ⟨fun h => h.1, fun h => ⟨h, fun _ => uses_ofExcept _⟩⟩

theorem Uses.mono {allowed' : S.Op → Prop} {p : Program S α} (hp : p.Uses allowed)
    (hSub : ∀ op, allowed op → allowed' op) : p.Uses allowed' := by
  induction p with
  | pure value => trivial
  | throw exc => trivial
  | request op next ih => exact ⟨hSub op hp.1, fun answer => ih answer (hp.2 answer)⟩

theorem Uses.bind {p : Program S α} {f : α → Program S β} (hp : p.Uses allowed)
    (hf : ∀ value, (f value).Uses allowed) : (p >>= f).Uses allowed := by
  induction p with
  | pure value => exact hf value
  | throw exc => trivial
  | request op next ih => exact ⟨hp.1, fun answer => ih answer (hp.2 answer)⟩

theorem Uses.attempt {p : Program S α} (hp : p.Uses allowed) : p.attempt.Uses allowed := by
  induction p with
  | pure value => trivial
  | throw exc => trivial
  | request op next ih => exact ⟨hp.1, fun answer => ih answer (hp.2 answer)⟩

end Uses

def Yields (φ : α → Prop) : Program S α → Prop
  | .pure value => φ value
  | .throw _ => True
  | .request _ next => ∀ answer, (next answer).Yields φ

theorem Yields.bind {ψ : α → Prop} {φ : β → Prop} {p : Program S α} {f : α → Program S β} (hp : p.Yields ψ)
    (hf : ∀ value, ψ value → (f value).Yields φ) : (p >>= f).Yields φ := by
  induction p with
  | pure value => exact hf value hp
  | throw exc => trivial
  | request op next ih => exact fun answer => ih answer (hp answer)

theorem Yields.mono {ψ φ : α → Prop} {p : Program S α} (h : ∀ value, ψ value → φ value) (hp : p.Yields ψ) : p.Yields φ := by
  induction p with
  | pure value => exact h value hp
  | throw exc => trivial
  | request op next ih => exact fun answer => ih answer (hp answer)

theorem Yields.attempt {ψ : α → Prop} {p : Program S α} (hp : p.Yields ψ) :
    p.attempt.Yields fun r => ∀ value, r = .ok value → ψ value := by
  induction p with
  | pure value =>
    intro _ hValue
    cases hValue
    exact hp
  | throw exc => exact nofun
  | request op next ih => exact fun answer => ih answer (hp answer)

theorem yields_true (p : Program S α) : p.Yields fun _ => True := by
  induction p with
  | pure value => trivial
  | throw exc => trivial
  | request op next ih => exact ih

theorem Yields.of_bind {φ : β → Prop} {p : Program S α} {f : α → Program S β} (hf : ∀ value, (f value).Yields φ) :
    (p >>= f).Yields φ := p.yields_true.bind fun value _ => hf value

section Run

variable {σ : Type} (answer : (op : S.Op) → σ → Except S.Exc (S.Ans op) × σ)

/-- An uninterrupted run against a fixed environment: outcome, final state, operations. -/
def run : Program S α → σ → Except S.Exc α × σ × List S.Op
  | .pure value, s => (.ok value, s, [])
  | .throw exc, s => (.error exc, s, [])
  | .request op next, s =>
    let (r, t) := answer op s
    let (outcome, u, ops) := (next r).run t
    (outcome, u, op :: ops)

def Runs (p : Program S α) (s : σ) (r : Except S.Exc α) (t : σ) (ops : List S.Op) : Prop :=
  p.run answer s = (r, t, ops)

variable {answer}

theorem Runs.pure (value : α) (s : σ) : (Program.pure value : Program S α).Runs answer s (.ok value) s [] := rfl
theorem Runs.throw (exc : S.Exc) (s : σ) : (Program.throw exc : Program S α).Runs answer s (.error exc) s [] := rfl

theorem runs_request {op : S.Op} {next : Except S.Exc (S.Ans op) → Program S α} {s t : σ}
    {r : Except S.Exc α} {ops : List S.Op} : (request op next).Runs answer s r t ops ↔
      ∃ rest, ops = op :: rest ∧ (next (answer op s).1).Runs answer (answer op s).2 r t rest := by
  simp only [Runs, run, Prod.ext_iff]
  constructor
  · rintro ⟨hr, ht, rfl⟩
    exact ⟨_, rfl, hr, ht, rfl⟩
  · rintro ⟨rest, rfl, hr, ht, rfl⟩
    exact ⟨hr, ht, rfl⟩

theorem Runs.perform {op : S.Op} {s t : σ} {r : Except S.Exc (S.Ans op)} (h : answer op s = (r, t)) :
    (Program.perform op).Runs answer s r t [op] := by
  simp only [Runs, Program.perform, run, h]
  cases r <;> rfl

theorem Runs.bind {p : Program S α} {f : α → Program S β} {s t u : σ} {value : α}
    {r : Except S.Exc β} {ops ops' : List S.Op} (hp : p.Runs answer s (.ok value) t ops)
    (hf : (f value).Runs answer t r u ops') : (p >>= f).Runs answer s r u (ops ++ ops') := by
  induction p generalizing s ops with
  | pure value => cases hp; exact hf
  | throw exc => cases hp
  | request op next ih =>
    obtain ⟨rest, rfl, hNext⟩ := runs_request.mp hp
    exact runs_request.mpr ⟨_, rfl, ih _ hNext⟩

theorem Runs.bind_error {p : Program S α} {f : α → Program S β} {s t : σ} {exc : S.Exc}
    {ops : List S.Op} (hp : p.Runs answer s (.error exc) t ops) :
    (p >>= f).Runs answer s (.error exc) t ops := by
  induction p generalizing s ops with
  | pure value => cases hp
  | throw exc => cases hp; rfl
  | request op next ih =>
    obtain ⟨rest, rfl, hNext⟩ := runs_request.mp hp
    exact runs_request.mpr ⟨_, rfl, ih _ hNext⟩

theorem Runs.attempt {p : Program S α} {s t : σ} {r : Except S.Exc α} {ops : List S.Op}
    (hp : p.Runs answer s r t ops) : p.attempt.Runs answer s (.ok r) t ops := by
  induction p generalizing s ops with
  | pure value => cases hp; rfl
  | throw exc => cases hp; rfl
  | request op next ih =>
    obtain ⟨rest, rfl, hNext⟩ := runs_request.mp hp
    exact runs_request.mpr ⟨_, rfl, ih _ hNext⟩

theorem Runs.unique {p : Program S α} {s t u : σ} {r r' : Except S.Exc α} {ops ops' : List S.Op}
    (h : p.Runs answer s r t ops) (h' : p.Runs answer s r' u ops') : r = r' ∧ t = u ∧ ops = ops' := by
  have hEq := h.symm.trans h'
  simpa using hEq

theorem Runs.allowed {allowed : S.Op → Prop} {p : Program S α} {s t : σ} {r : Except S.Exc α}
    {ops : List S.Op} (h : p.Runs answer s r t ops) (hUses : p.Uses allowed) : ∀ op ∈ ops, allowed op := by
  induction p generalizing s ops with
  | pure value => cases h; simp
  | throw exc => cases h; simp
  | request op next ih =>
    obtain ⟨rest, rfl, hNext⟩ := runs_request.mp h
    intro other hOther
    rcases List.mem_cons.mp hOther with rfl | hOther
    · exact hUses.1
    · exact ih _ hNext (hUses.2 _) other hOther

theorem Runs.keeps {allowed : S.Op → Prop} {κ : Type} {keep : σ → κ} {p : Program S α} {s t : σ}
    {r : Except S.Exc α} {ops : List S.Op} (h : p.Runs answer s r t ops) (hUses : p.Uses allowed)
    (hOp : ∀ op s, allowed op → keep (answer op s).2 = keep s) : keep t = keep s := by
  induction p generalizing s ops with
  | pure value => cases h; rfl
  | throw exc => cases h; rfl
  | request op next ih =>
    obtain ⟨rest, rfl, hNext⟩ := runs_request.mp h
    exact (ih _ hNext (hUses.2 _)).trans (hOp op s hUses.1)

/-- Every program has a run: none can fail to end. -/
theorem exists_runs (p : Program S α) (s : σ) : ∃ r t ops, p.Runs answer s r t ops := ⟨_, _, _, rfl⟩

end Run

end Program
end Resumption
