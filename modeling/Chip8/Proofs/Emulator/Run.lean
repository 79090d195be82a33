import Chip8.Emulator
import Chip8.Keypad.Update
import Chip8.Proofs.Machine.Run

/-!
# Runs of the emulator

A host that owns an emulator acts on it in any order: it loads programs, resets, steps, ticks and
sets keys (`Emulator.Event`).  A run is the emulator after a list of such events, whether they
succeed or not (`Emulator.run`).
-/

namespace Chip8

/-- What a host may do to an emulator. -/
inductive Emulator.Event where
  | load (rom : List UInt8)
  | reset
  | step
  | tick
  | setKey (key : Number) (pressed : Bool)
  | setKeys (update : KeyUpdate)
  | keyEvent (keymap : Keymap) (code : String) (pressed : Bool)
  | releaseKeys

namespace Emulator

/-- The emulator with other keys held. -/
def withKeypad (e : Emulator) (keypad : Keypad) : Emulator :=
  { e with machine := { e.machine with keypad } }

/-- The emulator after an event, and how the event ended. -/
def perform (e : Emulator) : Event → Outcome Emulator
  | .load rom => e.load rom
  | .reset => e.reset
  | .step => e.step
  | .tick => .ok e.tickTimers
  | .setKey key pressed =>
    .guarded e ((e.machine.keypad.setKey key pressed).mapError .fault) e.withKeypad
  | .setKeys update =>
    let (keypad, fault?) := e.machine.keypad.setKeys update
    { state := e.withKeypad keypad, failure? := fault?.map .fault }
  | .keyEvent keymap code pressed =>
    .guarded e ((e.machine.keypad.applyEvent keymap code pressed).mapError .fault)
      fun (keypad, _) => e.withKeypad keypad
  | .releaseKeys => .ok (e.withKeypad .released)

/-- The emulator after events. -/
def run (events : List Event) (e : Emulator) : Emulator :=
  events.foldl (fun e event => (e.perform event).state) e

/-! ### Events that change the machine alone -/

theorem bounded_withKeypad {e : Emulator} (he : e.machine.Bounded) (keypad : Keypad) :
    (e.withKeypad keypad).machine.Bounded :=
  he.of_eq rfl rfl rfl rfl rfl

/-- Unless it loads or resets, an event changes the machine alone, and keeps its bounds. -/
theorem state_perform_of_ne {e : Emulator} (he : e.machine.Bounded) {event : Event}
    (hload : ∀ rom, event ≠ .load rom) (hreset : event ≠ .reset) :
    ∃ machine : Machine, machine.Bounded ∧ (e.perform event).state = { e with machine } := by
  cases event with
  | load rom => exact absurd rfl (hload rom)
  | reset => exact absurd rfl hreset
  | step => exact ⟨_, Machine.bounded_perform he e.logger .step, rfl⟩
  | tick => exact ⟨_, Machine.bounded_perform he e.logger .tick, rfl⟩
  | setKey key pressed =>
    rw [perform]
    cases (e.machine.keypad.setKey key pressed).mapError Failure.fault with
    | error f => exact ⟨_, he, rfl⟩
    | ok keypad => exact ⟨_, bounded_withKeypad he keypad, rfl⟩
  | setKeys update => exact ⟨_, bounded_withKeypad he _, rfl⟩
  | keyEvent keymap code pressed =>
    rw [perform]
    cases (e.machine.keypad.applyEvent keymap code pressed).mapError Failure.fault with
    | error f => exact ⟨_, he, rfl⟩
    | ok result => exact ⟨_, bounded_withKeypad he result.1, rfl⟩
  | releaseKeys => exact ⟨_, bounded_withKeypad he _, rfl⟩

end Emulator

end Chip8
