import Chip8.Display.Basic
import Chip8.Font
import Chip8.Keypad.Basic
import Chip8.Machine.CallStack
import Chip8.Outcome
import Chip8.Random
import Chip8.Rom.Limit

/-!
# The machine

The complete state: sixteen registers, the index register, the program counter, the call stack,
the two timers, memory, display, keypad and the source of random bytes.  The index register and
the program counter are numbers, since a host may execute instructions with operands that no word
denotes; a program keeps both natural and within 16 bits.

`Machine.powerOn` makes a machine, `Machine.reset` restarts it and `Machine.loadProgram` puts a
program into its memory.
-/

namespace Chip8

/-- The state of the machine. -/
structure Machine where
  /-- The registers `V0` to `VF`. -/
  v : Vector UInt8 16
  /-- The index register `I`. -/
  i : Number
  /-- The program counter. -/
  pc : Number
  stack : CallStack
  /-- The delay timer. -/
  dt : UInt8
  /-- The sound timer. -/
  st : UInt8
  memory : Memory
  display : Display
  keypad : Keypad
  random : RandomSource

namespace Machine

/-- The address of the first instruction of a program. -/
def start : Number := .ofInt Memory.programStart

/-- A machine that has just got its parts, before its first reset. -/
def assembled (memory : Memory) (random : RandomSource) : Machine where
  v := Vector.replicate 16 0
  i := .ofInt 0
  pc := start
  stack := .empty
  dt := 0
  st := 0
  memory := memory
  display := .blank
  keypad := .released
  random := random

/-- Restarts the machine: registers, stack, timers and memory become zero, the font is loaded, the
display goes blank and the keys are released.  A memory too small for the font is a fault, which
leaves display and keypad as they were. -/
def reset (m : Machine) : Outcome Machine :=
  let zeroed : Machine :=
    { m with
      v := Vector.replicate 16 0, i := .ofInt 0, pc := start, stack := .empty, dt := 0, st := 0,
      memory := m.memory.clear }
  match zeroed.memory.load (.ofInt Font.base) Font.bytes with
  | .error f => { state := zeroed, failure? := some (.fault f) }
  | .ok memory =>
    .ok { zeroed with memory, display := m.display.clear, keypad := .released }

/-- A machine with the given memory and random source, after its first reset. -/
def powerOn (memory : Memory) (random : RandomSource) : Outcome Machine :=
  (assembled memory random).reset

/-- What is logged when a program has been loaded. -/
def loadedNote (length : Nat) : String :=
  "loaded " ++ (Number.ofInt length).decimal ++ " bytes at 0x" ++ start.hex

/-- Loads a program at the start address.  The length is checked first, then the whole range. -/
def loadProgram (m : Machine) (logger : Logger) (rom : List UInt8) : Outcome Machine :=
  match Rom.validate rom.length with
  | .error f => { state := m, failure? := some (.fault f) }
  | .ok () =>
    match m.memory.load start rom with
    | .error f => { state := m, failure? := some (.fault f) }
    | .ok memory =>
      { state := { m with memory }, log := (logger.debug (loadedNote rom.length)).toArray }

/-! ### Timers -/

/-- Both timers count down by one, and stop at zero. -/
def tickTimers (m : Machine) : Machine :=
  { m with
    dt := if m.dt = 0 then 0 else m.dt - 1
    st := if m.st = 0 then 0 else m.st - 1 }

/-- Whether the sound timer runs. -/
def isSoundActive (m : Machine) : Bool := 0 < m.st

end Machine

end Chip8
