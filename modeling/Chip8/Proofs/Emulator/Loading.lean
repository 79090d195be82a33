import Chip8.Proofs.Emulator.Restart

/-!
# Programs that do not fit

The length of a program is held to the standard memory first, and to the memory that the machine
has when it is loaded there.  Between the two, `Emulator.load` keeps the program and resets the
machine.  So a program that is too long for the standard memory is refused before anything changes,
but one that only runs over the end of a smaller memory is refused after the old one is gone
(`load_refused`): what is left is the machine as after a reset, with a program that no reset can
start.

`Machine.loadProgram` changes nothing in either case.
-/

namespace Chip8

namespace Machine

/-! ### Resetting in a memory of any size -/

theorem reach_restarted (m : Machine) : m.restarted.memory.reach = m.memory.reach :=
  congrArg Number.floor (Memory.size_store m.memory.clear Font.base Font.bytes)

theorem failure?_reset_of_lt {m : Machine} (h : m.memory.reach < 160) :
    m.reset.failure? ≠ none := by
  have hload : m.memory.clear.load (.ofInt Font.base) Font.bytes =
      .error (Memory.accessFault m.memory.size (.ofInt Font.base) (.ofInt Font.bytes.length)) := by
    rw [Memory.load_ofInt, font_ends]
    exact if_neg (Int.not_le.2 h)
  simp only [reset, hload]
  exact Option.some_ne_none _

/-- A machine can be made with a memory if there is room for the font in it. -/
theorem failure?_powerOn_eq_none_iff (memory : Memory) (random : RandomSource) :
    (powerOn memory random).failure? = none ↔ 160 ≤ memory.reach := by
  constructor
  · intro h
    by_contra hlt
    exact failure?_reset_of_lt (m := assembled memory random) (Int.not_le.1 hlt) h
  · intro h
    rw [powerOn, reset_of_le (m := assembled memory random) h]
    rfl

/-! ### Loading in a memory of any size -/

/-- Loading a program is all or nothing. -/
theorem state_loadProgram_of_failure {m : Machine} {logger : Logger} {rom : List UInt8}
    (h : (m.loadProgram logger rom).failure?.isSome) : (m.loadProgram logger rom).state = m := by
  unfold loadProgram at h ⊢
  cases hvalidate : Rom.validate rom.length with
  | error f => rfl
  | ok _ =>
    cases hload : m.memory.load start rom with
    | error f => rfl
    | ok memory =>
      simp only [hvalidate, hload] at h
      cases h

/-- A program is refused if it is too long or runs over the end of the memory. -/
theorem isSome_failure?_loadProgram (m : Machine) (logger : Logger) (rom : List UInt8) :
    (m.loadProgram logger rom).failure?.isSome ↔
      3584 < rom.length ∨ m.memory.reach < 512 + rom.length := by
  have hload : m.memory.load start rom = _ := Memory.load_ofInt m.memory Memory.programStart rom
  have hstart : ((Memory.programStart : Nat) : Int) = 512 := rfl
  rw [hstart] at hload
  rw [loadProgram, Rom.validate_natCast]
  by_cases hlength : 0xE00 < rom.length
  · rw [if_pos hlength]
    exact iff_of_true rfl (.inl hlength)
  · rw [if_neg hlength, or_iff_right hlength]
    by_cases hfits : (512 + rom.length : Int) ≤ m.memory.reach
    · rw [if_pos hfits] at hload
      simp only [hload]
      exact iff_of_false Bool.false_ne_true (Int.not_lt.2 hfits)
    · rw [if_neg hfits] at hload
      simp only [hload]
      exact iff_of_true rfl (Int.not_le.1 hfits)

end Machine

namespace Emulator

/-! ### Resetting and loading with a program -/

/-- A reset with a program loads it into the machine after its own reset. -/
theorem reset_of_rom {e : Emulator} {rom : List UInt8} (hrom : e.rom? = some rom)
    (hroom : 160 ≤ e.machine.memory.reach) :
    e.reset = (e.machine.restarted.loadProgram e.logger rom).map fun machine =>
      { e with machine } := by
  rw [reset, Machine.reset_of_le hroom, Outcome.ok_andThen, hrom]

theorem load_of_not_lt {e : Emulator} {rom : List UInt8} (hlength : ¬ 3584 < rom.length)
    (hroom : 160 ≤ e.machine.memory.reach) :
    e.load rom = (e.machine.restarted.loadProgram e.logger rom).map fun machine =>
      { e with rom? := some rom, machine } := by
  rw [load, Rom.validate_natCast, if_neg hlength]
  exact reset_of_rom (e := { e with rom? := some rom }) rfl hroom

theorem isSome_failure?_load (e : Emulator) (rom : List UInt8)
    (hroom : 160 ≤ e.machine.memory.reach) :
    (e.load rom).failure?.isSome ↔
      3584 < rom.length ∨ e.machine.memory.reach < 512 + rom.length := by
  by_cases hlength : 3584 < rom.length
  · rw [load_of_lt e hlength]
    exact iff_of_true rfl (.inl hlength)
  · rw [load_of_not_lt hlength hroom, Outcome.failure?_map, Machine.isSome_failure?_loadProgram,
      Machine.reach_restarted]

/-- A program that runs over the end of the memory is kept, and the machine is reset. -/
theorem state_load_of_overrun {e : Emulator} {rom : List UInt8} (hlength : ¬ 3584 < rom.length)
    (hroom : 160 ≤ e.machine.memory.reach) (hover : e.machine.memory.reach < 512 + rom.length) :
    (e.load rom).state = { e with rom? := some rom, machine := e.machine.restarted } := by
  have hfails : (e.machine.restarted.loadProgram e.logger rom).failure?.isSome := by
    rw [Machine.isSome_failure?_loadProgram, Machine.reach_restarted]
    exact .inr hover
  rw [load_of_not_lt hlength hroom, Outcome.state_map, Machine.state_loadProgram_of_failure hfails]

theorem isSome_failure?_reset_of_overrun {e : Emulator} {rom : List UInt8}
    (hrom : e.rom? = some rom) (hroom : 160 ≤ e.machine.memory.reach)
    (hover : e.machine.memory.reach < 512 + rom.length) : e.reset.failure?.isSome := by
  rw [reset_of_rom hrom hroom, Outcome.failure?_map, Machine.isSome_failure?_loadProgram,
    Machine.reach_restarted]
  exact .inr hover

/-- On a memory that a machine can be made with, whatever the state, a program is refused if it is
longer than 3584 bytes or runs over the end of the memory.  In the first case nothing has changed,
and only in this case: in the second the emulator has kept the program and its machine is reset, and
then every reset fails.  The machine by itself refuses a program without a change in either case. -/
theorem load_refused (e : Emulator) (rom : List UInt8)
    (hmade : (Machine.powerOn e.machine.memory e.machine.random).failure? = none) :
    let o := e.load rom
    (o.failure?.isSome ↔ 3584 < rom.length ∨ e.machine.memory.reach < 512 + rom.length) ∧
      (o.failure?.isSome → (o.state = e ↔ 3584 < rom.length)) ∧
      (o.failure?.isSome → ¬ 3584 < rom.length →
        o.state = { e with rom? := some rom, machine := e.machine.restarted } ∧
          o.state.reset.failure?.isSome) ∧
      ∀ logger, (e.machine.loadProgram logger rom).failure?.isSome →
        (e.machine.loadProgram logger rom).state = e.machine := by
  have hroom := (Machine.failure?_powerOn_eq_none_iff _ _).1 hmade
  have hrefused := isSome_failure?_load e rom hroom
  intro o
  have hstate (hfails : o.failure?.isSome) (hlength : ¬ 3584 < rom.length) :
      o.state = { e with rom? := some rom, machine := e.machine.restarted } :=
    state_load_of_overrun hlength hroom ((hrefused.1 hfails).resolve_left hlength)
  refine ⟨hrefused, ?_, ?_, fun logger => Machine.state_loadProgram_of_failure⟩
  · intro hfails
    constructor
    · intro hsame
      by_contra hlength
      -- a reset raises the version of the display
      have hversion : e.machine.display.version + 1 = e.machine.display.version :=
        congrArg (fun e => e.machine.display.version) ((hstate hfails hlength).symm.trans hsame)
      exact Nat.succ_ne_self _ hversion
    · intro hlength
      show (e.load rom).state = e
      rw [load_of_lt e hlength]
  · intro hfails hlength
    refine ⟨hstate hfails hlength, ?_⟩
    have hover := (hrefused.1 hfails).resolve_left hlength
    rw [hstate hfails hlength]
    -- the memory of the machine after the reset reaches no further
    rw [← Machine.reach_restarted] at hroom hover
    exact isSome_failure?_reset_of_overrun rfl hroom hover

/-- An emulator whose memory ends two bytes past the start address, with a program in them. -/
def tight : Emulator :=
  (ofMachine (Machine.powerOn (.zeroed 514) (.replay #[] 0)).state .standard (.recorder true)).run
    [.load [0x12, 0x00]]

/-- A program of three bytes is refused, and the one of two bytes is gone. -/
theorem load_refused_tight :
    (Machine.powerOn tight.machine.memory tight.machine.random).failure? = none ∧
      (tight.load [0x12, 0x00, 0x00]).failure?.isSome ∧
      (tight.load [0x12, 0x00, 0x00]).state =
        { tight with rom? := some [0x12, 0x00, 0x00], machine := tight.machine.restarted } := by
  have hmade : (Machine.powerOn tight.machine.memory tight.machine.random).failure? = none := by
    decide +kernel
  obtain ⟨hrefused, -, hstate, -⟩ := load_refused tight [0x12, 0x00, 0x00] hmade
  have hfails := hrefused.2 (.inr (by decide +kernel))
  exact ⟨hmade, hfails, (hstate hfails (by decide)).1⟩

/-- The load fails, but the old program is gone from the memory and from what a reset loads. -/
theorem load_not_atomic :
    (Machine.powerOn tight.machine.memory tight.machine.random).failure? = none ∧
      (tight.load [0x12, 0x00, 0x00]).failure?.isSome ∧
      tight.machine.memory.byteAt 0x200 = 0x12 ∧ tight.rom? = some [0x12, 0x00] ∧
      (tight.load [0x12, 0x00, 0x00]).state.machine.memory.byteAt 0x200 = 0x00 ∧
      (tight.load [0x12, 0x00, 0x00]).state.rom? = some [0x12, 0x00, 0x00] := by
  decide +kernel

end Emulator

end Chip8
