import RoveMapping.Library.Interference

/-! # A program on its own

Runs of one program from start to end, where the environment chooses each answer among those that `ok` admits.
-/
namespace Resumption
set_option autoImplicit false

variable {S : Signature} {ι σ χ α β : Type}

inductive Solo (sem : Semantics S ι σ χ) (ok : S.Op → χ → σ → Prop) (i : ι) :
    Program S α → σ → Except S.Exc α → σ → Prop where
  | pure (value : α) (s : σ) : Solo sem ok i (.pure value) s (.ok value) s
  | throw (exc : S.Exc) (s : σ) : Solo sem ok i (.throw exc) s (.error exc) s
  | request {op : S.Op} {next : Except S.Exc (S.Ans op) → Program S α} {s t u : σ} {r : Except S.Exc α}
      {answer : Except S.Exc (S.Ans op)} (choice : χ) (hOk : ok op choice s) (hSem : sem i op choice s = some (answer, t))
      (hRest : Solo sem ok i (next answer) t r u) : Solo sem ok i (.request op next) s r u

variable {sem : Semantics S ι σ χ} {R : Rules S ι σ χ} {ok : S.Op → χ → σ → Prop} {i : ι}

/-- What is proved of a program for any interference holds at the end of a run without one. -/
theorem Solo.of_safe {p : Program S α} {Q : Except S.Exc α → σ → Prop} {s t : σ} {r : Except S.Exc α}
    (hRun : Solo sem ok i p s r t) (hAllowed : ∀ op choice u, ok op choice u → R.allowed i op choice u)
    (hInv : R.inv s) (h : Safe sem R i p Q s) : R.inv t ∧ Q r t := by
  induction hRun with
  | pure value s => exact ⟨hInv, h⟩
  | throw exc s => exact ⟨hInv, h⟩
  | request choice hOk hSem _ ih =>
    obtain ⟨hGuarantee, hNext⟩ := (h _ (R.refl i _) hInv).2 choice _ _ (hAllowed _ _ _ hOk) hSem
    exact ih hGuarantee.1 hNext

theorem Triple.solo {p : Program S α} {P : σ → Prop} {Q : Except S.Exc α → σ → Prop} {s t : σ} {r : Except S.Exc α}
    (h : Triple sem R i P p Q) (hAllowed : ∀ op choice u, ok op choice u → R.allowed i op choice u) (hInv : R.inv s)
    (hs : P s) (hRun : Solo sem ok i p s r t) : R.inv t ∧ Q r t :=
  hRun.of_safe hAllowed hInv (h s hInv hs)

/-- A run against a fixed environment is one among the runs. -/
theorem Solo.of_runs {answer : (op : S.Op) → σ → Except S.Exc (S.Ans op) × σ}
    (hSem : ∀ op s, ∃ choice, ok op choice s ∧ sem i op choice s = some (answer op s)) {p : Program S α} {s t : σ}
    {r : Except S.Exc α} {ops : List S.Op} (hRuns : p.Runs answer s r t ops) : Solo sem ok i p s r t := by
  induction p generalizing s ops with
  | pure value =>
    cases hRuns
    exact .pure value _
  | throw exc =>
    cases hRuns
    exact .throw exc _
  | request op next ih =>
    obtain ⟨rest, -, hNext⟩ := Program.runs_request.mp hRuns
    obtain ⟨choice, hOk, hAnswer⟩ := hSem op s
    exact .request choice hOk hAnswer (ih _ hNext)

/-! ## Rules for a program on its own -/

def alone (ok : S.Op → χ → σ → Prop) : Rules S Unit σ χ where
  inv _ := True
  rely _ s t := t = s
  demand _ _ _ := True
  allowed _ := ok
  refl _ _ := rfl
  trans _ _ _ _ h h' := h'.trans h

section Alone

variable {solo : Semantics S Unit σ χ} {P : σ → Prop}

theorem alone_stable (P : σ → Prop) : (alone ok).Stable () P := by
  rintro s t - rfl h
  exact h

theorem alone_perform {op : S.Op} {Q : Except S.Exc (S.Ans op) → σ → Prop}
    (h : ∀ s choice answer t, P s → ok op choice s → solo () op choice s = some (answer, t) → Q answer t) :
    Triple solo (alone ok) () P (.perform op) Q := by
  refine Triple.perform (alone_stable P) fun s _ hs => ⟨trivial, fun choice answer t hOk hSem => ⟨?_, ?_⟩⟩
  · exact ⟨trivial, fun j hj => absurd rfl hj⟩
  · exact h s choice answer t hs hOk hSem

/-- What a program yields for any answers it yields here. -/
theorem alone_yields {p : Program S α} {φ : α → Prop} (h : p.Yields φ) :
    Triple solo (alone ok) () P p (Delivers fun value _ => φ value) := by
  have hUses : p.Uses fun _ => True := by
    clear h
    induction p with
    | pure value => trivial
    | throw exc => trivial
    | request op next ih => exact ⟨trivial, ih⟩
  have hAny : Triple solo (alone ok) () P p fun _ _ => True :=
    (Triple.of_uses hUses (alone_stable _) fun op _ => alone_perform fun _ _ _ _ _ _ _ => trivial).pre fun _ _ _ => trivial
  refine (hAny.yields h).consequence (fun _ _ hs => hs) ?_
  rintro (exc | value) s - hEnd
  · trivial
  · exact hEnd.2

theorem alone_solo {p : Program S α} {Q : Except S.Exc α → σ → Prop} (h : Triple solo (alone ok) () P p Q) {s t : σ}
    {r : Except S.Exc α} (hs : P s) (hRun : Solo solo ok () p s r t) : Q r t :=
  (h.solo (fun _ _ _ hOk => hOk) trivial hs hRun).2

end Alone

end Resumption
