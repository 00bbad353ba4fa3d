import RoveMapping.Library.Machine

/-! # Runs that a machine can be led along

`Can` is the angelic counterpart of `Safe`: for some answers of the environment, and some events
between the operations, the program ends as wanted. It turns into a run of the machine.
-/
namespace Resumption
set_option autoImplicit false

variable {S : Signature} {ι σ χ π η ρ α β : Type}

/-- The environment alone moves the state. -/
def Drifts (M : Machine S ι σ χ π η ρ) : σ → σ → Prop :=
  Relation.ReflTransGen fun s t => ∃ event, M.env event s = some t

def Can (M : Machine S ι σ χ π η ρ) (i : ι) : Program S α → (Except S.Exc α → σ → Prop) → σ → Prop
  | .pure value, Q, s => Q (.ok value) s
  | .throw exc, Q, s => Q (.error exc) s
  | .request op next, Q, s =>
    ∃ t choice answer u, Drifts M s t ∧ M.sem i op choice t = some (answer, u) ∧ Can M i (next answer) Q u

namespace Can

variable {M : Machine S ι σ χ π η ρ} {i : ι} {p : Program S α} {Q : Except S.Exc α → σ → Prop} {s : σ}

theorem bind {f : α → Program S β} {N : Except S.Exc α → σ → Prop} {Q : Except S.Exc β → σ → Prop}
    (h : Can M i p N s) (hOk : ∀ value t, N (.ok value) t → Can M i (f value) Q t)
    (hError : ∀ exc t, N (.error exc) t → Q (.error exc) t) : Can M i (p >>= f) Q s := by
  induction p generalizing s with
  | pure value => exact hOk value s h
  | throw exc => exact hError exc s h
  | request op next ih =>
    obtain ⟨t, choice, answer, u, hDrifts, hSem, hNext⟩ := h
    exact ⟨t, choice, answer, u, hDrifts, hSem, ih answer hNext⟩

theorem bind_returns {f : α → Program S β} {N : α → σ → Prop} {Q : Except S.Exc β → σ → Prop}
    (h : Can M i p (Returns N) s) (hOk : ∀ value t, N value t → Can M i (f value) Q t) : Can M i (p >>= f) Q s :=
  h.bind hOk fun _ _ hError => hError.elim

theorem attempt (h : Can M i p Q s) : Can M i p.attempt (Returns Q) s := by
  induction p generalizing s with
  | pure value => exact h
  | throw exc => exact h
  | request op next ih =>
    obtain ⟨t, choice, answer, u, hDrifts, hSem, hNext⟩ := h
    exact ⟨t, choice, answer, u, hDrifts, hSem, ih answer hNext⟩

theorem perform {op : S.Op} {Q : Except S.Exc (S.Ans op) → σ → Prop} {t u : σ} {answer : Except S.Exc (S.Ans op)}
    (choice : χ) (hDrifts : Drifts M s t) (hSem : M.sem i op choice t = some (answer, u)) (hQ : Q answer u) :
    Can M i (.perform op) Q s := by
  refine ⟨t, choice, answer, u, hDrifts, hSem, ?_⟩
  cases answer with
  | ok value => exact hQ
  | error exc => exact hQ

variable [DecidableEq ι] {origin : Pool S ι σ ρ} {thread : ι → Program S ρ}

theorem drifts {ok : Pool S ι σ ρ → Label ι χ π η → Prop} {t : σ} (hOk : ∀ pool event, ok pool (.env event))
    (h : Reaches M.next ok origin ⟨s, thread⟩) (hDrifts : Drifts M s t) : Reaches M.next ok origin ⟨t, thread⟩ := by
  induction hDrifts with
  | refl => exact h
  | tail _ hStep ih =>
    obtain ⟨event, hEvent⟩ := hStep
    refine ih.tail ⟨.env event, hOk _ _, ?_⟩
    simp only [Machine.next, hEvent, Option.map_some]

/-- What a thread can do happens in some run. -/
theorem reaches {p : Program S ρ} {Q : Except S.Exc ρ → σ → Prop} (h : Can M i p Q s)
    (hRun : Reaches M.next (fun _ _ => True) origin ⟨s, Function.update thread i p⟩) :
    ∃ pool r, Reaches M.next (fun _ _ => True) origin pool ∧ (pool.thread i).outcome? = some r ∧ Q r pool.shared := by
  induction p generalizing s with
  | pure value => exact ⟨_, .ok value, hRun, by simp [Program.outcome?], h⟩
  | throw exc => exact ⟨_, .error exc, hRun, by simp [Program.outcome?], h⟩
  | request op next ih =>
    obtain ⟨t, choice, answer, u, hDrifts, hSem, hNext⟩ := h
    exact ih answer hNext ((drifts (fun _ _ => trivial) hRun hDrifts).step choice trivial hSem)

end Can
end Resumption
