import Chip8.Outcome

/-!
# Outcomes side by side

Two operations that fail alike and leave related states (`Outcome.Alike`).  Checks, sequences and
changes of the kind of state keep this, so operations made of the same parts in the same order are
alike if the parts are.
-/

namespace Chip8

/-- Outcomes that fail alike and leave related states, whatever they log. -/
structure Outcome.Alike {σ τ : Type} (R : σ → τ → Prop) (o : Outcome σ) (o' : Outcome τ) :
    Prop where
  state : R o.state o'.state
  failure?_eq : o.failure? = o'.failure?

namespace Outcome

variable {σ τ : Type} {R : σ → τ → Prop}

theorem Alike.ok {state : σ} {state' : τ} (h : R state state') : Alike R (ok state) (ok state') :=
  ⟨h, rfl⟩

theorem Alike.guarded {α : Type} {state : σ} {state' : τ} (h : R state state')
    (check : Except Failure α) {change : α → σ} {change' : α → τ}
    (hchange : ∀ a, R (change a) (change' a)) :
    Alike R (guarded state check change) (guarded state' check change') := by
  cases check with
  | error f => exact ⟨h, rfl⟩
  | ok a => exact ⟨hchange a, rfl⟩

theorem Alike.andThen {o : Outcome σ} {o' : Outcome τ} (h : Alike R o o') {next : σ → Outcome σ}
    {next' : τ → Outcome τ}
    (hnext : ∀ state state', R state state' → Alike R (next state) (next' state')) :
    Alike R (o.andThen next) (o'.andThen next') := by
  obtain ⟨state, failure?, log⟩ := o
  obtain ⟨state', failure?', log'⟩ := o'
  obtain ⟨hstate, rfl⟩ := h
  cases failure? with
  | none =>
    have hrest := hnext state state' hstate
    exact ⟨hrest.state, hrest.failure?_eq⟩
  | some f => exact ⟨hstate, rfl⟩

theorem Alike.map {ρ ρ' : Type} {S : ρ → ρ' → Prop} {o : Outcome σ} {o' : Outcome τ}
    (h : Alike R o o') {f : σ → ρ} {f' : τ → ρ'}
    (hmap : ∀ state state', R state state' → S (f state) (f' state')) :
    Alike S (o.map f) (o'.map f') :=
  ⟨hmap _ _ h.state, h.failure?_eq⟩

theorem Alike.withContext {o : Outcome σ} {o' : Outcome τ} (h : Alike R o o')
    (context : FaultContext) : Alike R (o.withContext context) (o'.withContext context) := by
  refine ⟨h.state, ?_⟩
  rw [failure?_withContext, failure?_withContext, h.failure?_eq]

end Outcome

end Chip8
