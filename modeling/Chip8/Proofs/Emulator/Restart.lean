import Chip8.Proofs.Emulator.Run
import Chip8.Proofs.Machine.Start

/-!
# Restarting erases the past

A reset, and a load that succeeds, leave a machine that has just started the last program that was
loaded (`reset_eq`, `load_of_le`).  Along every run the program that a reset loads again is the
last one that was not too long (`holds_run`), so a load that is refused leaves no trace.
-/

namespace Chip8.Emulator

open Machine (started)

/-! ### Loading and resetting -/

theorem reset_eq {e : Emulator} (he : e.machine.Bounded)
    (hrom : ∀ rom ∈ e.rom?, rom.length ≤ 0xE00) :
    e.reset.failure? = none ∧
      e.reset.state = { e with
        machine := started (e.rom?.getD []) (e.machine.display.version + 1) e.machine.random } := by
  have hstart := Machine.reset_eq_started he.wellFormed.size_eq he.wellFormed.count_eq
  obtain ⟨machine, config, logger, rom?⟩ := e
  rw [reset, hstart, Outcome.ok_andThen]
  cases rom? with
  | none => exact ⟨rfl, rfl⟩
  | some rom =>
    have hload := Machine.loadProgram_started (hrom rom rfl) (machine.display.version + 1)
      machine.random logger
    simp only [hload]
    exact ⟨rfl, rfl⟩

theorem load_of_le {e : Emulator} (he : e.machine.Bounded) {rom : List UInt8}
    (h : rom.length ≤ 0xE00) :
    (e.load rom).failure? = none ∧
      (e.load rom).state = { e with
        rom? := some rom
        machine := started rom (e.machine.display.version + 1) e.machine.random } := by
  have hrom : ∀ other ∈ some rom, other.length ≤ 0xE00 := by
    rintro _ ⟨⟩
    exact h
  rw [load, Rom.validate_natCast, if_neg (Nat.not_lt.2 h)]
  exact reset_eq (e := { e with rom? := some rom }) he hrom

theorem load_of_lt (e : Emulator) {rom : List UInt8} (h : 0xE00 < rom.length) :
    e.load rom = { state := e, failure? := some (.fault (Rom.sizeFault rom.length)) } := by
  rw [load, Rom.validate_natCast, if_pos h]

/-! ### Runs -/

/-- The program that an event loads, if it does and the program is not too long. -/
def Event.program? : Event → Option (List UInt8)
  | .load rom => if rom.length ≤ 0xE00 then some rom else none
  | _ => none

/-- The last program that events have loaded. -/
def lastProgram? (events : List Event) : Option (List UInt8) :=
  (events.filterMap Event.program?).getLast?

theorem lastProgram?_cons (event : Event) (rest : List Event) :
    lastProgram? (event :: rest) = (lastProgram? rest).or event.program? := by
  unfold lastProgram?
  rw [List.filterMap_cons]
  cases event.program? with
  | none => rw [Option.or_none]
  | some rom =>
    rw [List.getLast?_cons]
    cases (rest.filterMap Event.program?).getLast? <;> rfl

/-- The machine is within its bounds, and a program that is not too long is kept for a reset. -/
structure Holds (e : Emulator) (rom? : Option (List UInt8)) : Prop where
  bounded : e.machine.Bounded
  rom_eq : e.rom? = rom?
  length_le : ∀ rom ∈ rom?, rom.length ≤ 0xE00

theorem holds_ofMachine {machine : Machine} (h : machine.Bounded) (config : Config)
    (logger : Logger) : (ofMachine machine config logger).Holds none :=
  ⟨h, rfl, by simp⟩

theorem holds_perform {e : Emulator} {rom? : Option (List UInt8)} (he : e.Holds rom?)
    (event : Event) : (e.perform event).state.Holds (event.program?.or rom?) := by
  obtain ⟨hbounded, rfl, hlength⟩ := he
  have hother : (∀ rom, event ≠ .load rom) → event ≠ .reset →
      ∃ machine : Machine, machine.Bounded ∧ (e.perform event).state = { e with machine } :=
    state_perform_of_ne hbounded
  cases event with
  | load rom =>
    rw [perform, Event.program?]
    -- the program is kept only after its length has been accepted
    by_cases h : rom.length ≤ 0xE00
    · rw [(load_of_le hbounded h).2, if_pos h]
      refine ⟨Machine.bounded_started _ _ _, rfl, ?_⟩
      rintro _ ⟨⟩
      exact h
    · rw [load_of_lt e (Nat.lt_of_not_le h), if_neg h]
      exact ⟨hbounded, rfl, hlength⟩
  | reset =>
    rw [perform, (reset_eq hbounded hlength).2]
    exact ⟨Machine.bounded_started _ _ _, rfl, hlength⟩
  | _ =>
    obtain ⟨machine, hmachine, hstate⟩ := hother (by simp) (by simp)
    rw [hstate]
    exact ⟨hmachine, rfl, hlength⟩

theorem holds_run (events : List Event) {e : Emulator} {rom? : Option (List UInt8)}
    (he : e.Holds rom?) : (e.run events).Holds ((lastProgram? events).or rom?) := by
  induction events generalizing e rom? with
  | nil => exact he
  | cons event rest ih =>
    rw [lastProgram?_cons, Option.or_assoc]
    exact ih (holds_perform he event)

/-- Whatever a host does to a new emulator, a reset leaves a machine that has just started the last
program that was loaded, or none, and a load leaves one that has just started the program it is
given.  Only a program of more than 3584 bytes is refused, and then nothing changes. -/
theorem run_restart (config : Config) (random : RandomSource) (logger : Logger)
    (events : List Event) :
    let e := (create config random logger).run events
    let fresh (rom : List UInt8) : Machine :=
      started rom (e.machine.display.version + 1) e.machine.random
    e.rom? = lastProgram? events ∧
      e.reset.failure? = none ∧
      e.reset.state = { e with machine := fresh ((lastProgram? events).getD []) } ∧
      ∀ rom : List UInt8,
        (e.load rom).failure? =
            (if 3584 < rom.length then some (.fault (Rom.sizeFault rom.length)) else none) ∧
          (e.load rom).state =
            if 3584 < rom.length then e else { e with rom? := some rom, machine := fresh rom } := by
  have hnew : (create config random logger).Holds none :=
    holds_ofMachine (Machine.bounded_powerOn random) config logger
  have he := holds_run events hnew
  rw [Option.or_none] at he
  intro e fresh
  have hrom : e.rom? = lastProgram? events := he.rom_eq
  obtain ⟨hsuccess, hstate⟩ := reset_eq he.bounded (hrom ▸ he.length_le)
  refine ⟨hrom, hsuccess, ?_, ?_⟩
  · rw [hstate, he.rom_eq]
  · intro rom
    by_cases h : 3584 < rom.length
    · rw [if_pos h, if_pos h, load_of_lt e h]
      exact ⟨rfl, rfl⟩
    · rw [if_neg h, if_neg h]
      exact load_of_le he.bounded (Nat.le_of_not_lt h)

end Chip8.Emulator
