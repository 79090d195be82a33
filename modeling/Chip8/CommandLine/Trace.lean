import Chip8.CommandLine.Arguments
import Chip8.CommandLine.Session
import Chip8.Emulator
import Chip8.Machine.Snapshot
import Chip8.Rom.Reader

/-!
# The trace command

Runs a program for a number of steps and writes what the machine looked like before each of them,
a line a step, up to and with the first step that fails.  The timers tick after every so many steps
as there are in a frame.
-/

namespace Chip8.CommandLine.Trace

/-- The steps made so far. -/
structure Course where
  emulator : Emulator
  snapshots : Array Snapshot := #[]
  failure? : Option Failure := none
  log : Array Log.Entry := #[]

/-- Whether a count of steps is a whole number of frames. -/
def completesFrame (config : Config) (count : Nat) : Bool :=
  match config.instructionsPerFrame.toRat? with
  | some n => n ≠ 0 ∧ ((count : Rat) / n).den = 1
  | none => false

/-- Makes up to `count` more steps; a failing one is the last. -/
def run : (count : Nat) → Course → Course
  | 0, course => course
  | count + 1, ⟨emulator, snapshots, failure?, log⟩ =>
    let snapshots := snapshots.push emulator.machine.snapshot
    let o := emulator.step
    let log := log ++ o.log
    match o.failure? with
    | some e => ⟨o.state, snapshots, some e, log⟩
    | none =>
      let ticks := completesFrame o.state.config snapshots.size
      let emulator := if ticks then o.state.tickTimers else o.state
      run count ⟨emulator, snapshots, failure?, log⟩

/-- The lines of a trace, as text or as JSON. -/
def lines (asText : Bool) (snapshots : List Snapshot) : List String :=
  if asText then snapshots.map Snapshot.line
  else snapshots.zipIdx.map fun (s, step) => s.record step

/-- The text of a trace.  It may have any length: the longest string that a host can hold, and the
failure beyond it, are not modelled. -/
def output (asText : Bool) (snapshots : List Snapshot) : String :=
  "\n".intercalate (lines asText snapshots) ++ "\n"

/-- How the command is used. -/
def usage : String :=
  "Usage: tsx scripts/cpu_trace.ts --rom=path/to/game.ch8 [--maxSteps=N] [--out=trace.jsonl] " ++
    "[--seed=N] [--text]"

/-- The logger of the command. -/
def logger (env : Environment) : Logger := .console "trace" (env.flag "CHIP8_DEBUG")

/-- Ends with a failure that nothing else deals with. -/
def unhandled (env : Environment) (e : Failure) : Session :=
  .printLog ((logger env).call .error [.text "Unhandled error:", .failure e]) (.finish 1)

/-- The end of the command, after the trace has been written. -/
def conclude (env : Environment) (failure? : Option Failure) : Session :=
  match failure? with
  | none => .finish 0
  | some e =>
    .printLog ((logger env).call .error [.text "stopped on CPU error:", .failure e]) (.finish 1)

/-- Writes a trace to a file or prints it. -/
def emit (env : Environment) (flags : Flags) (course : Course) : Session :=
  let snapshots := course.snapshots.toList
  let text := output (flags.value? "text" == some .bare) snapshots
  match flags.nonempty? "out" with
  | none => .print false text (conclude env course.failure?)
  | some path =>
    .writeFile path (.text text) fun
      | .error e => unhandled env (.system e)
      | .ok () =>
        let note := "Wrote " ++ (Number.ofInt snapshots.length).decimal ++ " steps to " ++ path
        .printLog ((logger env).info note) (conclude env course.failure?)

/-- The settings of the command; a seed may be given as a flag. -/
def config (env : Environment) (flags : Flags) : Config :=
  Config.load env { seed? := (Config.seedOf? (flags.text? "seed")).map some }

/-- The command.  Without a seed, random bytes come from the given source. -/
def session (args : List String) (env : Environment) (unseeded : RandomSource) : Session :=
  let flags := Flags.ofArguments args
  match flags.nonempty? "rom" with
  | none => .printLog ((logger env).call .error [.text usage]) (.finish 2)
  | some path =>
    .readFile path fun file =>
      match Rom.ofFile file with
      | .error e => unhandled env e
      | .ok rom =>
        let config := config env flags
        let random := Emulator.randomSource config unseeded
        let loaded :=
          (Emulator.create config random (Emulator.machineLogger config.debug)).load rom
        .printLog loaded.log.toList <|
          match loaded.failure? with
          | some e => unhandled env e
          | none =>
            let count := (flags.positive "maxSteps" 1000).ceil.toNat
            let course := run count { emulator := loaded.state }
            .printLog course.log.toList (emit env flags course)

end Chip8.CommandLine.Trace
