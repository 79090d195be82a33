import Chip8.Fault

/-!
# Logging

Logging is a value: an operation that logs returns the entries it made, in order, and never looks
at them again.  A `Logger` says where a call goes.  A console logger puts its tag in front, drops
debug calls unless they are enabled and sends warnings and errors to the error stream; a recording
logger keeps every call made to it, whatever its debug flag.
-/

namespace Chip8

namespace Log

/-- The levels of a log call. -/
inductive Level where
  | debug
  | info
  | warn
  | error
deriving DecidableEq, Repr

/-- The ways a console prints a line: plainly, as a warning, as an error. -/
inductive Console where
  | plain
  | warning
  | error
deriving DecidableEq, Repr

/-- Where an entry went: to the console, or to a recording logger at some level. -/
inductive Channel where
  | console (kind : Console)
  | recorded (level : Level)
deriving DecidableEq, Repr

/-- An argument of a log call. -/
inductive Arg where
  | text (s : String)
  | number (n : Number)
  | failure (e : Failure)
deriving DecidableEq, Repr

/-- One logged line. -/
structure Entry where
  channel : Channel
  args : List Arg
deriving DecidableEq, Repr

/-- An argument as it is printed; a failure contributes its message. -/
def Arg.print : Arg → String
  | .text s => s
  | .number n => n.decimal
  | .failure e => e.message

/-- An entry as it is printed: its arguments, separated by spaces. -/
def Entry.line (e : Entry) : String := " ".intercalate (e.args.map Arg.print)

/-- The destinations of a logger. -/
inductive Sink where
  | console (tag : String)
  | recorder
deriving DecidableEq, Repr

/-- The way a console prints a level. -/
def Level.console : Level → Console
  | .debug => .plain
  | .info => .plain
  | .warn => .warning
  | .error => .error

end Log

open Log in
/-- A logger: whether debug calls are wanted, and where calls go.  A logger that a caller brings
along is an observer: none of its calls fails, and none calls back into the emulator.  One that does
either is not modelled. -/
structure Logger where
  debugEnabled : Bool
  sink : Sink
deriving DecidableEq, Repr

namespace Logger

open Log

/-- A logger that prints with a tag in brackets. -/
def console (tag : String) (debugEnabled : Bool) : Logger := ⟨debugEnabled, .console tag⟩

/-- A logger that keeps what it is given. -/
def recorder (debugEnabled : Bool) : Logger := ⟨debugEnabled, .recorder⟩

/-- The entries that a log call makes. -/
def call (logger : Logger) (level : Level) (args : List Arg) : List Entry :=
  match logger.sink with
  | .recorder => [⟨.recorded level, args⟩]
  | .console tag =>
    if level = .debug ∧ !logger.debugEnabled then []
    else [⟨.console level.console, .text ("[" ++ tag ++ "]") :: args⟩]

/-- A call at level debug with a text. -/
def debug (logger : Logger) (text : String) : List Entry := logger.call .debug [.text text]

/-- A call at level info with a text. -/
def info (logger : Logger) (text : String) : List Entry := logger.call .info [.text text]

end Logger

end Chip8
