import Chip8.Proofs.Emulator.Run
import Chip8.Proofs.Machine.Tracing

/-!
# Steps in a row

Whoever makes up to so many steps, and stops at the first that fails, makes a `Stretch` of them.
`Makes` says what it is without a loop, for any row of emulators that the steps are made from.
`Emulator.stretch` computes it where one step follows the other (`Emulator.stepped`), and the two
agree (`makes_stretch`).

Whatever a host does to an emulator, its machine can be shown afterwards if it could before
(`traceable_run`).
-/

namespace Chip8

/-- Steps in a row, of which only the last may fail. -/
structure Stretch where
  /-- How many steps succeed. -/
  succeeded : Nat
  /-- What the step after those fails with, if there is one. -/
  failure? : Option Failure

namespace Stretch

/-- How many steps are made, the failing one included. -/
def attempts (s : Stretch) : Nat := s.succeeded + s.failure?.isSome.toNat

/-- The stretch after one more step, which succeeds. -/
def cons (s : Stretch) : Stretch := { s with succeeded := s.succeeded + 1 }

theorem attempts_cons (s : Stretch) : s.cons.attempts = s.attempts + 1 := Nat.add_right_comm _ 1 _

end Stretch

namespace Emulator

/-- The first steps from a row of emulators succeed. -/
def Succeed (row : Nat → Emulator) (count : Nat) : Prop := ∀ i < count, (row i).step.failure? = none

/-- Up to `count` steps from a row of emulators, up to and with the first that fails. -/
inductive Makes (row : Nat → Emulator) (count : Nat) : Stretch → Prop
  | all (h : Succeed row count) : Makes row count ⟨count, none⟩
  | cutShort {k : Nat} {f : Failure} (hlt : k < count) (h : Succeed row k)
      (hfails : (row k).step.failure? = some f) : Makes row count ⟨k, some f⟩

/-- The emulator after some steps, whether they succeed or not. -/
def stepped (e : Emulator) (count : Nat) : Emulator := e.run (List.replicate count .step)

/-- The stretch that up to `count` steps of an emulator make. -/
def stretch : (count : Nat) → Emulator → Stretch
  | 0, _ => ⟨0, none⟩
  | count + 1, e => e.step.failure?.elim (stretch count e.step.state).cons fun f => ⟨0, some f⟩

/-! ### Stretches -/

section

variable {row : Nat → Emulator} {count : Nat} {s : Stretch}

theorem succeed_zero (row : Nat → Emulator) : Succeed row 0 := by
  intro i hi
  exact absurd hi (Nat.not_lt_zero i)

theorem Succeed.of_le {k : Nat} (h : Succeed row count) (hk : k ≤ count) : Succeed row k := by
  intro i hi
  exact h i (Nat.lt_of_lt_of_le hi hk)

theorem succeed_succ_iff (row : Nat → Emulator) (count : Nat) :
    Succeed row (count + 1) ↔
      (row 0).step.failure? = none ∧ Succeed (fun i => row (i + 1)) count := by
  constructor
  · intro h
    refine ⟨h 0 (Nat.succ_pos count), fun i hi => ?_⟩
    exact h (i + 1) (Nat.succ_lt_succ hi)
  · rintro ⟨hfirst, hrest⟩ i hi
    cases i with
    | zero => exact hfirst
    | succ i => exact hrest i (Nat.lt_of_succ_lt_succ hi)

theorem Makes.cons (h : Makes (fun i => row (i + 1)) count s)
    (hfirst : (row 0).step.failure? = none) : Makes row (count + 1) s.cons := by
  cases h with
  | all hall => exact .all ((succeed_succ_iff row count).2 ⟨hfirst, hall⟩)
  | cutShort hlt hsucceed hfails =>
    exact .cutShort (Nat.succ_lt_succ hlt) ((succeed_succ_iff row _).2 ⟨hfirst, hsucceed⟩) hfails

theorem exists_makes (row : Nat → Emulator) (count : Nat) : ∃ s, Makes row count s := by
  induction count generalizing row with
  | zero => exact ⟨_, .all (succeed_zero row)⟩
  | succ count ih =>
    cases hfirst : (row 0).step.failure? with
    | some f => exact ⟨_, .cutShort (Nat.succ_pos count) (succeed_zero row) hfirst⟩
    | none =>
      obtain ⟨s, hs⟩ := ih fun i => row (i + 1)
      exact ⟨_, hs.cons hfirst⟩

/-- Up to so many steps make one stretch only. -/
theorem Makes.unique {t : Stretch} (hs : Makes row count s) (ht : Makes row count t) : s = t := by
  -- where one of them fails, the other cannot have succeeded
  have hfirst {k l : Nat} {f : Failure} (hsucceed : Succeed row l)
      (hfails : (row k).step.failure? = some f) : l ≤ k := by
    by_contra hlt
    rw [hsucceed k (Nat.lt_of_not_le hlt)] at hfails
    cases hfails
  cases hs with
  | all hall =>
    cases ht with
    | all _ => rfl
    | cutShort hlt _ hfails => exact absurd (hfirst hall hfails) (Nat.not_le.2 hlt)
  | cutShort hlt hsucceed hfails =>
    cases ht with
    | all hall => exact absurd (hfirst hall hfails) (Nat.not_le.2 hlt)
    | cutShort _ hsucceed' hfails' =>
      obtain rfl := Nat.le_antisymm (hfirst hsucceed hfails') (hfirst hsucceed' hfails)
      rw [hfails, Option.some.injEq] at hfails'
      rw [hfails']

theorem Makes.succeeded_eq (h : Makes row count s) (hnone : s.failure? = none) :
    s.succeeded = count := by
  cases h with
  | all _ => rfl
  | cutShort _ _ _ => cases hnone

theorem Makes.succeed_of_le {k : Nat} (h : Makes row count s) (hk : k ≤ s.succeeded) :
    Succeed row k := by
  cases h with
  | all hall => exact hall.of_le hk
  | cutShort _ hsucceed _ => exact hsucceed.of_le hk

/-- The first step that fails is where a stretch ends. -/
theorem Makes.eq_of_fails {i : Nat} {f : Failure} (h : Makes row count s) (hi : i ≤ s.succeeded)
    (hlt : i < count) (hfails : (row i).step.failure? = some f) : s = ⟨i, some f⟩ :=
  h.unique (.cutShort hlt (h.succeed_of_le hi) hfails)

theorem Makes.lt_of_succeeds {i : Nat} (h : Makes row count s) (hi : i ≤ s.succeeded)
    (hlt : i < count) (hsucceeds : (row i).step.failure? = none) : i < s.succeeded := by
  cases h with
  | all _ => exact hlt
  | cutShort _ _ hfails =>
    refine Nat.lt_of_le_of_ne hi ?_
    rintro rfl
    rw [hsucceeds] at hfails
    cases hfails

theorem Makes.attempts_le (h : Makes row count s) : s.attempts ≤ count := by
  cases h with
  | all _ => exact Nat.le_refl count
  | cutShort hlt _ _ => exact hlt

end

/-! ### Steps one after the other -/

theorem run_append (e : Emulator) (events rest : List Event) :
    e.run (events ++ rest) = (e.run events).run rest :=
  List.foldl_append

theorem step_stepped (e : Emulator) (count : Nat) :
    (e.stepped count).step.state = e.stepped (count + 1) := by
  rw [stepped, stepped, List.replicate_succ', run_append]
  rfl

theorem makes_stretch (e : Emulator) (count : Nat) : Makes e.stepped count (e.stretch count) := by
  induction count generalizing e with
  | zero => exact .all (succeed_zero e.stepped)
  | succ count ih =>
    rw [stretch]
    cases h : e.step.failure? with
    | some f => exact .cutShort (Nat.succ_pos count) (succeed_zero e.stepped) h
    | none => exact (ih e.step.state).cons h

theorem stretch_eq {e : Emulator} {count : Nat} {s : Stretch} (h : Makes e.stepped count s) :
    e.stretch count = s :=
  (e.makes_stretch count).unique h

/-! ### Machines that can be shown -/

theorem traceable_reset {e : Emulator} (he : e.machine.Traceable) :
    e.reset.state.machine.Traceable := by
  rw [reset, Outcome.state_map]
  refine Outcome.holds_andThen (Machine.traceable_reset he) fun machine hmachine => ?_
  cases e.rom? with
  | none => exact hmachine
  | some rom => exact Machine.traceable_loadProgram hmachine e.logger rom

theorem traceable_perform {e : Emulator} (he : e.machine.Traceable) (event : Event) :
    (e.perform event).state.machine.Traceable := by
  have hkeys (keypad : Keypad) : (e.withKeypad keypad).machine.Traceable := he.of_eq rfl rfl
  have hguarded {α : Type} (check : Except Failure α) (keypad : α → Keypad) :
      (Outcome.guarded e check fun a => e.withKeypad (keypad a)).state.machine.Traceable :=
    Outcome.holds_guarded (P := fun e : Emulator => e.machine.Traceable) he
      fun a => hkeys (keypad a)
  cases event with
  | load rom =>
    rw [perform, load]
    cases Rom.validate rom.length with
    | error f => exact he
    | ok _ => exact traceable_reset he
  | reset => exact traceable_reset he
  | step =>
    have hstep : (e.perform .step).state.machine = e.machine.step.state :=
      Machine.state_loggedStep e.machine e.logger
    rw [hstep]
    exact Machine.traceable_step he
  | tick => exact he.of_eq rfl rfl
  | setKey key pressed => exact hguarded _ id
  | setKeys update => exact hkeys _
  | keyEvent keymap code pressed => exact hguarded _ Prod.fst
  | releaseKeys => exact hkeys _

theorem traceable_run (events : List Event) {e : Emulator} (he : e.machine.Traceable) :
    (e.run events).machine.Traceable := by
  induction events generalizing e with
  | nil => exact he
  | cons event rest ih => exact ih (traceable_perform he event)

theorem traceable_create (config : Config) (random : RandomSource) (logger : Logger) :
    (create config random logger).machine.Traceable := by
  simp only [create, ofMachine]
  exact (Machine.bounded_powerOn random).wellFormed.traceable

/-- An emulator whose program has one instruction, and then a word that is none. -/
def faulty : Emulator :=
  (create .standard (.replay #[] 0) (.recorder true)).run [.load [0x60, 0x01, 0x00, 0x00]]

theorem traceable_faulty : faulty.machine.Traceable :=
  traceable_run _ (traceable_create .standard (.replay #[] 0) (.recorder true))

end Emulator

end Chip8
