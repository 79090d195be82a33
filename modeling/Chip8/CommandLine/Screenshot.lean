import Chip8.CommandLine.Arguments
import Chip8.CommandLine.Session
import Chip8.Fingerprint
import Chip8.Rom.Reader
import Chip8.Scheduler

/-!
# The screenshot command

Runs a program for a number of frames with some keys held and writes the display as a PNG file.
A step that fails ends the frames, if the error mode says so, but the display is written all the
same.
-/

namespace Chip8.CommandLine.Screenshot

/-- The numbers of keys in a list separated by commas: integers in base sixteen; items that are
none or no key are passed over. -/
def keyNumbers (raw : String) : List Int :=
  if raw.isEmpty then []
  else
    ((raw.toList.splitOn ',').filterMap Numeral.hexInteger?).filter fun k => 0 ≤ k ∧ k ≤ 15

/-- The keypad with keys held. -/
def hold (p : Keypad) (keys : List Int) : Except Fault Keypad :=
  keys.foldlM (fun p k => p.setKey (.ofInt k) true) p

/-- The settings that flags override: those that a variable of the environment would accept, the
error mode in lower case only. -/
def overrides (flags : Flags) : Config.Overrides where
  instructionsPerFrame? := Config.frameLength? (flags.text? "ipf")
  errorMode? := (flags.text? "onCpuError").bind ErrorMode.ofName?
  seed? := (Config.seedOf? (flags.text? "seed")).map some

/-- The settings of the command. -/
def config (env : Environment) (flags : Flags) : Config := Config.load env (overrides flags)

/-- The logger of the command. -/
def logger (env : Environment) : Logger := .console "screenshot" (env.flag "CHIP8_DEBUG")

/-- Runs up to `count` frames after the first `done`, with a note after every sixty. -/
def shoot (logger : Logger) : (count done : Nat) → (log : Array Log.Entry) → Scheduler.Run →
    Outcome Scheduler.Run
  | 0, _, log, run => { state := run, log }
  | count + 1, done, log, run =>
    if run.scheduler.isHalted then { state := run, log }
    else
      let o := Scheduler.stepFrame run
      let log := log ++ o.log
      match o.failure? with
      | some e => { state := o.state, failure? := some e, log }
      | none =>
        let note := "stepped " ++ (Number.ofInt (done + 1)).decimal ++ " frames"
        let log := if done % 60 = 59 then log ++ logger.debug note else log
        shoot logger count (done + 1) log o.state

/-- How the command is used. -/
def usage : String :=
  "Usage: npm run screenshot -- --rom=path/to/game.ch8 [--out=out.png] [--frames=120] " ++
    "[--ipf=10] [--scale=8] [--seed=N] [--onCpuError=throw|record|ignore] [--keys=5,A]"

/-- Ends with a failure that nothing else deals with. -/
def unhandled (env : Environment) (e : Failure) : Session :=
  .printLog ((logger env).call .error [.text "Unhandled error:", .failure e]) (.finish 1)

/-- What is told about the program before it runs. -/
def startNote (romPath outPath : String) (length : Nat) (frames scale : Rat) (config : Config) :
    String :=
  let number (q : Rat) := (Number.rat q).decimal
  "ROM: " ++ romPath ++ " (" ++ number length ++ " bytes)  out: " ++ outPath ++
    "  frames: " ++ number frames ++ "  ipf: " ++ config.instructionsPerFrame.decimal ++
    "  scale: " ++ number scale ++ "  onCpuError=" ++ config.errorMode.name

/-- What is told about the display after it was written. -/
def endNote (outPath : String) (run : Scheduler.Run) : String :=
  let number (n : Nat) := (Number.ofInt n).decimal
  let display := run.emulator.machine.display
  "Wrote " ++ outPath ++ " after " ++ number run.scheduler.frames ++ " frames, " ++
    number run.scheduler.executed ++ " instructions, " ++ number display.countLit ++
    " lit pixels, hash=" ++ display.fingerprint

/-- Writes the display after the frames have run, if the host has room for the picture. -/
def conclude (host : Storage.Host) (env : Environment) (outPath : String) (scale : Rat)
    (shot : Outcome Scheduler.Run) : Session :=
  let raised := shot.failure?.elim [] fun e =>
    (logger env).call .error [.text "CPU error during stepping:", .failure e]
  let last := shot.state.scheduler.lastFailure?.elim [] fun e =>
    (logger env).call .warn [.text "last CPU error:", .failure e]
  .printLog (shot.log.toList ++ raised ++ last) <|
    match shot.state.emulator.machine.display.storedImage host scale .standard with
    | .error e => unhandled env e
    | .ok image =>
      .writeFile outPath (.picture image) fun
        | .error e => unhandled env (.system e)
        | .ok () => .printLog ((logger env).info (endNote outPath shot.state)) (.finish 0)

/-- Runs a program that has been read. -/
def perform (host : Storage.Host) (env : Environment) (flags : Flags) (unseeded : RandomSource)
    (romPath : String) (rom : List UInt8) : Session :=
  let outPath := (flags.nonempty? "out").getD "screenshot.png"
  let frames := flags.positive "frames" 120
  let scale := flags.positive "scale" 8
  let config := config env flags
  let random := Emulator.randomSource config unseeded
  let loaded := (Emulator.create config random (Emulator.machineLogger config.debug)).load rom
  let note := startNote romPath outPath rom.length frames scale config
  .printLog ((logger env).info note ++ loaded.log.toList) <|
    match loaded.failure? with
    | some e => unhandled env e
    | none =>
      match hold loaded.state.machine.keypad (keyNumbers ((flags.text? "keys").getD "")) with
      | .error f => unhandled env (.fault f)
      | .ok keypad =>
        let machine := { loaded.state.machine with keypad }
        let emulator := { loaded.state with machine }
        let run : Scheduler.Run := ⟨.new config {}, emulator⟩
        conclude host env outPath scale (shoot (logger env) frames.ceil.toNat 0 #[] run)

/-- The command on a host.  Without a seed, random bytes come from the given source. -/
def session (host : Storage.Host) (args : List String) (env : Environment)
    (unseeded : RandomSource) : Session :=
  let flags := Flags.ofValues args
  match (flags.nonempty? "rom").or ((env "CHIP8_ROM").filter (· ≠ "")) with
  | none => .printLog ((logger env).call .error [.text usage]) (.finish 1)
  | some path =>
    .readFile path fun file =>
      match Rom.ofFile file with
      | .error e => unhandled env e
      | .ok rom => perform host env flags unseeded path rom

end Chip8.CommandLine.Screenshot
