import Chip8.Config
import Chip8.Machine.Step

/-!
# The emulator

A machine together with its settings, its logger and the program it was last given, so that a
reset starts that program anew.
-/

namespace Chip8

/-- A machine with all that a host needs to run programs on it. -/
structure Emulator where
  machine : Machine
  config : Config
  logger : Logger
  /-- The program that a reset loads again. -/
  rom? : Option (List UInt8)

namespace Emulator

/-- An emulator around a machine, without a program. -/
def ofMachine (machine : Machine) (config : Config) (logger : Logger) : Emulator :=
  { machine, config, logger, rom? := none }

/-- The random source of some settings: seeded if they hold a seed, else the given one. -/
def randomSource (config : Config) (unseeded : RandomSource) : RandomSource :=
  config.seed?.elim unseeded .seeded

/-- The logger of a machine by default. -/
def machineLogger (debug : Bool) : Logger := .console "chip8" debug

/-- An emulator with a new machine of standard size. -/
def create (config : Config) (random : RandomSource) (logger : Logger) : Emulator :=
  ofMachine (Machine.powerOn .standard random).state config logger

/-- Restarts the machine and loads the last program, if there is one. -/
def reset (e : Emulator) : Outcome Emulator :=
  let restarted := e.machine.reset
  let loaded := restarted.andThen fun machine =>
    match e.rom? with
    | none => .ok machine
    | some rom => machine.loadProgram e.logger rom
  loaded.map fun machine => { e with machine }

/-- Starts a program; one of too many bytes changes nothing. -/
def load (e : Emulator) (rom : List UInt8) : Outcome Emulator :=
  match Rom.validate rom.length with
  | .error f => { state := e, failure? := some (.fault f) }
  | .ok () => { e with rom? := some rom }.reset

/-- One step of the machine. -/
def step (e : Emulator) : Outcome Emulator :=
  let ⟨machine, config, logger, rom?⟩ := e
  (machine.loggedStep logger).map fun machine => { machine, config, logger, rom? }

/-- One tick of the timers. -/
def tickTimers (e : Emulator) : Emulator := { e with machine := e.machine.tickTimers }

end Emulator

end Chip8
