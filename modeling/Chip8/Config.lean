import Chip8.Log
import Chip8.Number.Numeral

/-!
# Settings

The settings of an emulator come from the environment; a variable that is missing or makes no
sense leaves its setting at the default, and a host may override settings one by one.
-/

namespace Chip8

/-- The variables of the environment. -/
abbrev Environment := String → Option String

/-- Whether a variable is switched on, by `1` or `true` in any letter case. -/
def Environment.flag (env : Environment) (name : String) : Bool :=
  let value := Text.lower ((env name).getD "").toList
  value == ['1'] || value == ['t', 'r', 'u', 'e']

/-- What happens when a step fails within a frame. -/
inductive ErrorMode where
  /-- The failure is forgotten with the next frame. -/
  | ignore
  /-- The failure is raised. -/
  | raise
  /-- The failure is kept as the reason to halt. -/
  | record
  /-- The failure is kept, and later frames run all the same.  So it is with any other mode that a
  host names. -/
  | other (name : String)
deriving DecidableEq, Repr

namespace ErrorMode

/-- The name of an error mode. -/
def name : ErrorMode → String
  | .ignore => "ignore"
  | .raise => "throw"
  | .record => "record"
  | .other name => name

/-- The error modes of their own. -/
def all : List ErrorMode := [.ignore, .raise, .record]

/-- The error mode with exactly this name. -/
def ofName? (name : String) : Option ErrorMode := all.find? (·.name == name)

/-- The error mode that a host means by a name. -/
def ofName (name : String) : ErrorMode := (ofName? name).getD (.other name)

/-- The error mode with this name in any letter case. -/
def ofText? (text : String) : Option ErrorMode := ofName? (String.ofList (Text.lower text.toList))

end ErrorMode

/-- The settings. -/
structure Config where
  instructionsPerFrame : Number
  errorMode : ErrorMode
  /-- If positive, the state is logged before every so many steps. -/
  traceEvery : Number
  /-- The seed of the random generator; without one, every run draws other bytes. -/
  seed? : Option Number
  debug : Bool
deriving DecidableEq, Repr

namespace Config

/-- The defaults: about 600 instructions a second at 60 frames a second. -/
def standard : Config where
  instructionsPerFrame := .ofInt 10
  errorMode := .raise
  traceEvery := .ofInt 0
  seed? := none
  debug := false

/-- The settings that a host overrides. -/
structure Overrides where
  instructionsPerFrame? : Option Number := none
  errorMode? : Option ErrorMode := none
  traceEvery? : Option Number := none
  /-- A seed in place of the one there is, or none at all. -/
  seed? : Option (Option Number) := none
  debug? : Option Bool := none
deriving DecidableEq, Repr

/-- The value of the finite number that a text denotes. -/
def rational? (text? : Option String) : Option Rat :=
  text?.bind fun text => (Numeral.setting? text).bind Number.toRat?

/-- A count of instructions for each frame: the integer part of a number that is at least one. -/
def frameLength? (text? : Option String) : Option Number :=
  ((rational? text?).filter fun q => 1 ≤ q).map fun q => .ofInt q.floor

/-- A distance between trace lines: the integer part of a positive number. -/
def traceDistance? (text? : Option String) : Option Number :=
  ((rational? text?).filter fun q => 0 < q).map fun q => .ofInt q.floor

/-- A seed: the low 32 bits of the integer part of a number. -/
def seedOf? (text? : Option String) : Option Number :=
  (rational? text?).map fun q => .ofInt (Number.rat q).toUInt32.toNat

/-- The settings that the environment makes. -/
def ofEnvironment (env : Environment) : Config where
  instructionsPerFrame := (frameLength? (env "CHIP8_IPF")).getD standard.instructionsPerFrame
  errorMode := ((env "CHIP8_ON_CPU_ERROR").bind ErrorMode.ofText?).getD standard.errorMode
  traceEvery := (traceDistance? (env "CHIP8_TRACE_EVERY")).getD standard.traceEvery
  seed? := seedOf? (env "CHIP8_SEED")
  debug := env.flag "CHIP8_DEBUG"

/-- The settings with some of them overridden. -/
def override (c : Config) (o : Overrides) : Config where
  instructionsPerFrame := o.instructionsPerFrame?.getD c.instructionsPerFrame
  errorMode := o.errorMode?.getD c.errorMode
  traceEvery := o.traceEvery?.getD c.traceEvery
  seed? := o.seed?.getD c.seed?
  debug := o.debug?.getD c.debug

/-- The settings that the environment and a host make together. -/
def load (env : Environment) (o : Overrides) : Config := (ofEnvironment env).override o

end Config

end Chip8
