import RoveMapping.Library.Program

/-! # Rely/guarantee rules for programs over one shared state

`Rules` collects what a proof about interleaved programs assumes and promises: a global
invariant, what each thread may see the others do, and what must hold whenever a thread is
about to perform an operation. `Safe` says it of one program, by recursion on the program;
the rules below follow the way programs are put together.
-/
namespace Resumption
set_option autoImplicit false

/-- The effect of an operation of thread `i`: the environment's `choice` fixes the answer.
`none` means that the operation blocks, or that the environment cannot answer that way. -/
def Semantics (S : Signature) (ι σ χ : Type) : Type :=
  ι → (op : S.Op) → (choice : χ) → σ → Option (Except S.Exc (S.Ans op) × σ)

structure Rules (S : Signature) (ι σ χ : Type) where
  inv : σ → Prop
  rely : ι → σ → σ → Prop
  demand : ι → S.Op → σ → Prop
  /-- The steps a run is allowed to take: assumptions about the environment. -/
  allowed : ι → S.Op → χ → σ → Prop
  refl : ∀ i s, rely i s s
  trans : ∀ i s t u, rely i s t → rely i t u → rely i s u

variable {S : Signature} {ι σ χ α β : Type} (sem : Semantics S ι σ χ) (R : Rules S ι σ χ)

namespace Rules

def Stable (i : ι) (P : σ → Prop) : Prop := ∀ s t, R.inv t → R.rely i s t → P s → P t

/-- What thread `i` owes when it moves the state. -/
def Guarantee (i : ι) (s t : σ) : Prop := R.inv t ∧ ∀ j, j ≠ i → R.rely j s t

theorem Guarantee.refl {i : ι} {s : σ} (h : R.inv s) : R.Guarantee i s s := ⟨h, fun j _ => R.refl j s⟩

end Rules

def Safe (i : ι) : Program S α → (Except S.Exc α → σ → Prop) → σ → Prop
  | .pure value, Q, s => Q (.ok value) s
  | .throw exc, Q, s => Q (.error exc) s
  | .request op next, Q, s => ∀ t, R.rely i s t → R.inv t →
      R.demand i op t ∧ ∀ choice answer u, R.allowed i op choice t →
        sem i op choice t = some (answer, u) → R.Guarantee i t u ∧ Safe i (next answer) Q u

variable {sem R} {i : ι}

theorem Safe.request {op : S.Op} {next : Except S.Exc (S.Ans op) → Program S α}
    {next' : Except S.Exc (S.Ans op) → Program S β} {Q : Except S.Exc α → σ → Prop}
    {Q' : Except S.Exc β → σ → Prop} {s : σ} (h : Safe sem R i (.request op next) Q s)
    (hNext : ∀ answer u, R.inv u → Safe sem R i (next answer) Q u → Safe sem R i (next' answer) Q' u) :
    Safe sem R i (.request op next') Q' s := by
  intro t hRely hInv
  obtain ⟨hDemand, hStep⟩ := h t hRely hInv
  refine ⟨hDemand, ?_⟩
  intro choice answer u hAllowed hSem
  obtain ⟨hGuarantee, hRest⟩ := hStep choice answer u hAllowed hSem
  exact ⟨hGuarantee, hNext answer u hGuarantee.1 hRest⟩

theorem Safe.mono {p : Program S α} {Q Q' : Except S.Exc α → σ → Prop} {s : σ} (hInv : R.inv s)
    (hQ : ∀ r s, R.inv s → Q r s → Q' r s) (h : Safe sem R i p Q s) : Safe sem R i p Q' s := by
  induction p generalizing s with
  | pure value => exact hQ _ _ hInv h
  | throw exc => exact hQ _ _ hInv h
  | request op next ih => exact h.request fun answer u hInv hRest => ih answer hInv hRest

theorem Safe.stable {p : Program S α} {Q : Except S.Exc α → σ → Prop} {s t : σ}
    (hQ : ∀ r, R.Stable i (Q r)) (hRely : R.rely i s t) (hInv : R.inv t)
    (h : Safe sem R i p Q s) : Safe sem R i p Q t := by
  cases p with
  | pure value => exact hQ _ s t hInv hRely h
  | throw exc => exact hQ _ s t hInv hRely h
  | request op next => exact fun u hRely' hInv' => h u (R.trans i s t u hRely hRely') hInv'

theorem Safe.bind {p : Program S α} {f : α → Program S β} {M : Except S.Exc α → σ → Prop}
    {Q : Except S.Exc β → σ → Prop} {s : σ} (hInv : R.inv s) (h : Safe sem R i p M s)
    (hOk : ∀ value t, R.inv t → M (.ok value) t → Safe sem R i (f value) Q t)
    (hError : ∀ exc t, R.inv t → M (.error exc) t → Q (.error exc) t) :
    Safe sem R i (p >>= f) Q s := by
  induction p generalizing s with
  | pure value => exact hOk value s hInv h
  | throw exc => exact hError exc s hInv h
  | request op next ih => exact h.request fun answer u hInv hRest => ih answer hInv hRest

theorem Safe.attempt {p : Program S α} {Q : Except S.Exc (Except S.Exc α) → σ → Prop} {s : σ}
    (h : Safe sem R i p (fun r => Q (.ok r)) s) : Safe sem R i p.attempt Q s := by
  induction p generalizing s with
  | pure value => exact h
  | throw exc => exact h
  | request op next ih => exact h.request fun answer u _ hRest => ih answer hRest

theorem Safe.outcome {p : Program S α} {Q : Except S.Exc α → σ → Prop} {s : σ}
    {r : Except S.Exc α} (h : Safe sem R i p Q s) (hr : p.outcome? = some r) : Q r s := by
  cases p with
  | pure value => cases hr; exact h
  | throw exc => cases hr; exact h
  | request op next => cases hr

variable (sem R i) in
/-- From every state with `P`, the program is safe and ends in `Q`. -/
def Triple (P : σ → Prop) (p : Program S α) (Q : Except S.Exc α → σ → Prop) : Prop :=
  ∀ s, R.inv s → P s → Safe sem R i p Q s

def Delivers (post : α → σ → Prop) : Except S.Exc α → σ → Prop
  | .ok value, s => post value s
  | .error _, _ => True

def Returns (post : α → σ → Prop) : Except S.Exc α → σ → Prop
  | .ok value, s => post value s
  | .error _, _ => False

namespace Triple

variable {P P' : σ → Prop} {Q Q' M : Except S.Exc α → σ → Prop} {p : Program S α}

theorem consequence (h : Triple sem R i P' p Q') (hP : ∀ s, R.inv s → P s → P' s)
    (hQ : ∀ r s, R.inv s → Q' r s → Q r s) : Triple sem R i P p Q :=
  fun s hInv hs => (h s hInv (hP s hInv hs)).mono hInv hQ

theorem pre (h : Triple sem R i P' p Q) (hP : ∀ s, R.inv s → P s → P' s) : Triple sem R i P p Q :=
  h.consequence hP fun _ _ _ hs => hs

theorem given {φ : Prop} (h : φ → Triple sem R i P p Q) : Triple sem R i (fun s => φ ∧ P s) p Q :=
  fun s hInv hs => h hs.1 s hInv hs.2

theorem yields {φ : α → Prop} (h : Triple sem R i P p fun _ => P') (hYields : p.Yields φ) :
    Triple sem R i P p (Delivers fun value s => P' s ∧ φ value) := by
  intro s hInv hs
  have hp := h s hInv hs
  clear h hInv hs
  induction p generalizing s with
  | pure value => exact ⟨hp, hYields⟩
  | throw exc => trivial
  | request op next ih => exact hp.request fun answer u _ hRest => ih answer (hYields answer) u hRest

theorem pure {value : α} (h : ∀ s, R.inv s → P s → Q (.ok value) s) : Triple sem R i P (pure value) Q := h

theorem throw {exc : S.Exc} (h : ∀ s, R.inv s → P s → Q (.error exc) s) :
    Triple sem R i P (.throw exc : Program S α) Q := h

theorem ofExcept {r : Except S.Exc α} (h : ∀ s, R.inv s → P s → Q r s) :
    Triple sem R i P (.ofExcept r) Q := by
  cases r with
  | ok value => exact h
  | error exc => exact h

theorem bind {f : α → Program S β} {Q : Except S.Exc β → σ → Prop} (hp : Triple sem R i P p M)
    (hf : ∀ value, Triple sem R i (M (.ok value)) (f value) Q)
    (hError : ∀ exc s, R.inv s → M (.error exc) s → Q (.error exc) s) :
    Triple sem R i P (p >>= f) Q :=
  fun s hInv hs => (hp s hInv hs).bind hInv hf hError

theorem bind_returns {M : α → σ → Prop} {f : α → Program S β} {Q : Except S.Exc β → σ → Prop}
    (hp : Triple sem R i P p (Returns M)) (hf : ∀ value, Triple sem R i (M value) (f value) Q) :
    Triple sem R i P (p >>= f) Q :=
  hp.bind hf fun _ _ _ h => h.elim

theorem bind_delivers {M : α → σ → Prop} {post : β → σ → Prop} {f : α → Program S β}
    (hp : Triple sem R i P p (Delivers M)) (hf : ∀ value, Triple sem R i (M value) (f value) (Delivers post)) :
    Triple sem R i P (p >>= f) (Delivers post) :=
  hp.bind hf fun _ _ _ _ => trivial

theorem attempt (h : Triple sem R i P p M) :
    Triple sem R i P p.attempt (Returns M) :=
  fun s hInv hs => (h s hInv hs).attempt

theorem perform {op : S.Op} {Q : Except S.Exc (S.Ans op) → σ → Prop} (hP : R.Stable i P)
    (h : ∀ s, R.inv s → P s → R.demand i op s ∧ ∀ choice answer t, R.allowed i op choice s →
      sem i op choice s = some (answer, t) → R.Guarantee i s t ∧ Q answer t) :
    Triple sem R i P (.perform op) Q := by
  intro s _ hs t hRely hInv
  obtain ⟨hDemand, hStep⟩ := h t hInv (hP s t hInv hRely hs)
  refine ⟨hDemand, ?_⟩
  intro choice answer u hAllowed hSem
  obtain ⟨hGuarantee, hQ⟩ := hStep choice answer u hAllowed hSem
  exact ⟨hGuarantee, ofExcept (P := Q answer) (fun _ _ h => h) u hGuarantee.1 hQ⟩

/-- The frame rule: what every operation of a program keeps, the program keeps. -/
theorem of_uses {allowed : S.Op → Prop} (hUses : p.Uses allowed) (hP : R.Stable i P)
    (hOp : ∀ op, allowed op → Triple sem R i P (Program.perform op) fun _ => P) :
    Triple sem R i P p fun _ => P := by
  intro s hInv hs
  induction p generalizing s with
  | pure value => exact hs
  | throw exc => exact hs
  | request op next ih =>
    intro t hRely hInv'
    obtain ⟨hDemand, hStep⟩ := hOp op hUses.1 t hInv' (hP s t hInv' hRely hs) t (R.refl i t) hInv'
    refine ⟨hDemand, ?_⟩
    intro choice answer u hAllowed hSem
    obtain ⟨hGuarantee, hAnswer⟩ := hStep choice answer u hAllowed hSem
    have hu : P u := by
      cases answer with
      | ok value => exact hAnswer
      | error exc => exact hAnswer
    exact ⟨hGuarantee, ih answer (hUses.2 answer) u hGuarantee.1 hu⟩

end Triple
end Resumption
