import Chip8.Log

/-!
# Outcomes

An operation that may fail part of the way leaves a state behind in either case, and what it
logged.  An `Outcome` is these three things: the state, the failure if one ended the operation,
and the log.

An operation made of a check and a change is all or nothing (`state_guarded_of_failure`).
-/

namespace Chip8

/-- What an operation on states of type `σ` ends in. -/
structure Outcome (σ : Type) where
  state : σ
  failure? : Option Failure := none
  log : Array Log.Entry := #[]

namespace Outcome

variable {σ τ : Type}

/-- The operation succeeded. -/
@[inline] def ok (state : σ) : Outcome σ := { state }

/-- A check before a change: the failure of the check leaves the state as it is, and what it
found goes to the change. -/
@[inline] def guarded {α : Type} (state : σ) (check : Except Failure α) (change : α → σ) :
    Outcome σ :=
  match check with
  | .error e => { state, failure? := some e }
  | .ok a => { state := change a }

/-- The outcome as one of a larger state. -/
@[inline] def map (f : σ → τ) (o : Outcome σ) : Outcome τ :=
  { state := f o.state, failure? := o.failure?, log := o.log }

/-- Goes on with a second operation if the first succeeded. -/
@[inline] def andThen (o : Outcome σ) (next : σ → Outcome σ) : Outcome σ :=
  match o with
  | ⟨state, none, log⟩ =>
    let o := next state
    { o with log := log ++ o.log }
  | ⟨_, some _, _⟩ => o

/-- The outcome with the failure, if there is one, in its circumstances. -/
@[inline] def withContext (context : FaultContext) (o : Outcome σ) : Outcome σ :=
  { o with failure? := o.failure?.map (Failure.withContext context) }

/-! ### Laws -/

@[simp] theorem guarded_error {α : Type} (state : σ) (e : Failure) (change : α → σ) :
    guarded state (.error e) change = { state, failure? := some e } := rfl

@[simp] theorem guarded_ok {α : Type} (state : σ) (a : α) (change : α → σ) :
    guarded state (.ok a) change = { state := change a } := rfl

@[simp] theorem log_guarded {α : Type} (state : σ) (check : Except Failure α) (change : α → σ) :
    (guarded state check change).log = #[] := by
  cases check with
  | error e => rfl
  | ok a => rfl

/-- A change after a check is all or nothing. -/
theorem state_guarded_of_failure {α : Type} {state : σ} {check : Except Failure α}
    {change : α → σ} (h : (guarded state check change).failure?.isSome) :
    (guarded state check change).state = state := by
  cases check with
  | error e => rfl
  | ok a => cases h

/-- What holds of a state, and of every change of it, holds after a change that follows a check. -/
theorem holds_guarded {α : Type} {P : σ → Prop} {state : σ} {check : Except Failure α}
    {change : α → σ} (hstate : P state) (hchange : ∀ a, P (change a)) :
    P (guarded state check change).state := by
  cases check with
  | error e => exact hstate
  | ok a => exact hchange a

@[simp] theorem state_map (f : σ → τ) (o : Outcome σ) : (o.map f).state = f o.state := rfl

@[simp] theorem failure?_map (f : σ → τ) (o : Outcome σ) : (o.map f).failure? = o.failure? := rfl

theorem ok_andThen (state : σ) (next : σ → Outcome σ) : (ok state).andThen next = next state := by
  show { next state with log := #[] ++ (next state).log } = next state
  rw [Array.empty_append]

theorem andThen_of_success {o : Outcome σ} (next : σ → Outcome σ) (h : o.failure? = none) :
    o.andThen next = { next o.state with log := o.log ++ (next o.state).log } := by
  obtain ⟨state, failure?, log⟩ := o
  cases h
  rfl

/-- Going on with nothing changes nothing. -/
theorem andThen_ok (o : Outcome σ) : o.andThen ok = o := by
  obtain ⟨state, failure?, log⟩ := o
  cases failure? with
  | none => exact congrArg (Outcome.mk state none) Array.append_empty
  | some e => rfl

theorem andThen_of_failure {o : Outcome σ} (next : σ → Outcome σ) (h : o.failure?.isSome) :
    o.andThen next = o := by
  obtain ⟨state, failure?, log⟩ := o
  cases failure? with
  | none => cases h
  | some e => rfl

/-- What holds after a first operation, and is kept by a second, holds after both. -/
theorem holds_andThen {P : σ → Prop} {o : Outcome σ} {next : σ → Outcome σ} (hfirst : P o.state)
    (hnext : ∀ state, P state → P (next state).state) : P (o.andThen next).state := by
  obtain ⟨state, failure?, log⟩ := o
  cases failure? with
  | none => exact hnext state hfirst
  | some e => exact hfirst

@[simp] theorem state_withContext (context : FaultContext) (o : Outcome σ) :
    (o.withContext context).state = o.state := rfl

@[simp] theorem failure?_withContext (context : FaultContext) (o : Outcome σ) :
    (o.withContext context).failure? = o.failure?.map (Failure.withContext context) := rfl

end Outcome

end Chip8
