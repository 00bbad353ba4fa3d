import Mathlib.Data.List.Basic

/-! # Loops that only their body can leave

A round of the body gives the state of the next round, or ends the loop with a result. A number that every
further round makes smaller bounds the rounds, whatever the body does.
-/
namespace WhileTrue
set_option autoImplicit false

variable {σ β : Type}

structure Body (σ β : Type) where
  round : σ → σ ⊕ β
  size : σ → ℕ
  smaller : ∀ {s s'}, round s = .inl s' → size s' < size s

structure Trace (σ β : Type) where
  /-- The states in which a round starts. -/
  states : List σ
  result : β

def Body.run (body : Body σ β) (s : σ) : Trace σ β :=
  match h : body.round s with
  | .inl s' =>
    have := body.smaller h
    let rest := body.run s'
    ⟨s :: rest.states, rest.result⟩
  | .inr result => ⟨[s], result⟩
termination_by body.size s

variable {body : Body σ β}

theorem run_next {s s' : σ} (h : body.round s = .inl s') :
    body.run s = ⟨s :: (body.run s').states, (body.run s').result⟩ := by
  rw [Body.run]
  split
  · rename_i next hNext
    rw [h] at hNext
    cases hNext
    rfl
  · rename_i hEnd
    rw [h] at hEnd
    cases hEnd

theorem run_last {s : σ} {result : β} (h : body.round s = .inr result) : body.run s = ⟨[s], result⟩ := by
  rw [Body.run]
  split
  · rename_i hNext
    rw [h] at hNext
    cases hNext
  · rename_i hEnd
    rw [h] at hEnd
    cases hEnd
    rfl

/-- A run is its last round, or a round and the run that follows. -/
theorem run_induction {P : σ → Trace σ β → Prop} (last : ∀ s result, body.round s = .inr result → P s ⟨[s], result⟩)
    (next : ∀ s s' rest, body.round s = .inl s' → P s' rest → P s ⟨s :: rest.states, rest.result⟩) (s : σ) :
    P s (body.run s) := by
  induction hSize : body.size s using Nat.strongRecOn generalizing s with
  | ind size ih =>
    cases hRound : body.round s with
    | inl s' =>
      have hSmaller := body.smaller hRound
      rw [run_next hRound]
      exact next s s' _ hRound (ih _ (hSize ▸ hSmaller) s' rfl)
    | inr result =>
      rw [run_last hRound]
      exact last s result hRound

theorem run_invariant {Inv : σ → Prop} (hStep : ∀ s s', Inv s → body.round s = .inl s' → Inv s') {s : σ} (h : Inv s) :
    ∀ t ∈ (body.run s).states, Inv t := by
  revert h
  refine run_induction (P := fun s trace => Inv s → ∀ t ∈ trace.states, Inv t) ?_ ?_ s
  · intro s result _ h t hMem
    rwa [List.mem_singleton.mp hMem]
  · intro s s' rest hRound ih h
    rw [List.forall_mem_cons]
    exact ⟨h, ih (hStep s s' h hRound)⟩

/-- The result is the one of the round that starts in the last state. -/
theorem run_ends (body : Body σ β) (s : σ) :
    ∃ t, (body.run s).states.getLast? = some t ∧ body.round t = .inr (body.run s).result := by
  refine run_induction (P := fun _ trace => ∃ t, trace.states.getLast? = some t ∧ body.round t = .inr trace.result) ?_ ?_ s
  · intro s result hRound
    exact ⟨s, rfl, hRound⟩
  · rintro s s' rest - ⟨t, hLast, hRound⟩
    exact ⟨t, by rw [List.getLast?_cons, hLast]; rfl, hRound⟩

/-- Where the size never falls below `least`, it bounds the rounds. -/
theorem length_run_le {least : ℕ} (s : σ) (h : ∀ t ∈ (body.run s).states, least ≤ body.size t) :
    (body.run s).states.length + least ≤ body.size s + 1 := by
  revert h
  refine run_induction (P := fun s trace => (∀ t ∈ trace.states, least ≤ body.size t) →
    trace.states.length + least ≤ body.size s + 1) ?_ ?_ s
  · intro s result _ h
    have hLeast := h s (List.mem_singleton_self s)
    rw [List.length_singleton]
    omega
  · intro s s' rest hRound ih h
    have hSmaller := body.smaller hRound
    have hRest := ih fun t hMem => h t (List.mem_cons_of_mem s hMem)
    rw [List.length_cons]
    omega

end WhileTrue
