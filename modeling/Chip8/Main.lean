import Chip8.CommandLine.Screenshot
import Chip8.CommandLine.Trace

/-!
# The program

The command line: `trace` and `screenshot`, each with flags of its own.  This module alone touches
the world; what a command does there is its session.
-/

namespace Chip8.CommandLine

/-- The variables of the environment that a command may look at. -/
def variableNames : List String :=
  ["CHIP8_IPF", "CHIP8_ON_CPU_ERROR", "CHIP8_TRACE_EVERY", "CHIP8_SEED", "CHIP8_DEBUG",
    "CHIP8_ROM"]

/-- The environment that the program was started in. -/
def readEnvironment : IO Environment := do
  let values ← variableNames.mapM fun name => do return (name, ← IO.getEnv name)
  return fun name => (values.lookup name).join

/-- An error of the system, as a session sees it. -/
def systemError (path : String) : IO.Error → SystemError
  | .noFileOrDirectory .. => .noSuchFile path
  | e => ⟨"EIO", toString e⟩

/-- Lets a session happen. -/
def Session.perform : Session → IO UInt32
  | .finish exitCode => return exitCode.toUInt32
  | .print true text next => do
    (← IO.getStderr).putStr text
    next.perform
  | .print false text next => do
    (← IO.getStdout).putStr text
    next.perform
  | .readFile path next => do
    match ← (IO.FS.readBinFile path).toBaseIO with
    | .ok bytes => (next (.ok bytes.data.toList)).perform
    | .error e => (next (.error (systemError path e))).perform
  | .writeFile path content next => do
    match ← (IO.FS.writeBinFile path ⟨content.bytes⟩).toBaseIO with
    | .ok () => (next (.ok ())).perform
    | .error e => (next (.error (systemError path e))).perform

/-- The blocks of storage that the program asks for: up to 4 GiB. -/
def room : Storage.Host := .upTo 0x100000000

/-- A random source that differs from run to run. -/
def freshSource : IO RandomSource := do
  let seed ← IO.rand 1 0xFFFFFFFF
  return .seeded (.ofInt seed)

end Chip8.CommandLine

open Chip8.CommandLine in
/-- Runs the command that the first argument names. -/
def main (args : List String) : IO UInt32 := do
  let env ← readEnvironment
  let unseeded ← freshSource
  match args with
  | "trace" :: rest => (Trace.session rest env unseeded).perform
  | "screenshot" :: rest => (Screenshot.session room rest env unseeded).perform
  | _ => do
    (← IO.getStderr).putStr "Usage: chip8 trace|screenshot --rom=path/to/game.ch8 ...\n"
    return 2
