import Chip8.Emulator
import Chip8.Machine.Snapshot

/-!
# Frames

A scheduler runs an emulator frame by frame: each frame makes a fixed number of steps and then
ticks the timers once.  A step that fails ends the steps of its frame.  Then the error mode
decides: `raise` gives the failure to the caller, and the frame does not count; the other modes
keep it and tick the timers as usual, and `record` makes no further frame.

Before every so many steps a line that shows the machine may be logged.  If the machine cannot be
shown, that fault goes to the caller in every mode, and the frame does not count.
-/

namespace Chip8

/-- What a host may set of a scheduler in place of the settings of the emulator. -/
structure SchedulerOptions where
  instructionsPerFrame? : Option Number := none
  errorMode? : Option ErrorMode := none
  traceEvery? : Option Number := none
  logger? : Option Logger := none
deriving DecidableEq, Repr

/-- How frames are run, and what has been run so far.  The counts are natural numbers without a
bound, where binary64 counts would stay at `2 ^ 53` once they reach it; no run comes near that. -/
structure Scheduler where
  instructionsPerFrame : Nat
  errorMode : ErrorMode
  /-- The distance of trace lines in steps, zero for none. -/
  traceEvery : Nat
  logger : Logger
  lastFailure? : Option Failure
  /-- The count of steps that succeeded. -/
  executed : Nat
  /-- The count of frames that ticked the timers. -/
  frames : Nat
deriving DecidableEq, Repr

namespace Scheduler

/-- The integer part of a number, or a least value where it is smaller. -/
def atLeast (least : Nat) (n : Number) : Nat := max least n.floor.toNat

/-- A scheduler for an emulator with some settings. -/
def new (config : Config) (options : SchedulerOptions) : Scheduler where
  instructionsPerFrame :=
    atLeast 1 (options.instructionsPerFrame?.getD config.instructionsPerFrame)
  errorMode := options.errorMode?.getD config.errorMode
  traceEvery := atLeast 0 (options.traceEvery?.getD config.traceEvery)
  logger := options.logger?.getD (.console "sched" config.debug)
  lastFailure? := none
  executed := 0
  frames := 0

/-- Whether a recorded failure keeps further frames from running. -/
def isHalted (s : Scheduler) : Bool := s.errorMode = .record ∧ s.lastFailure?.isSome

/-- Whether a trace line is due before the next step. -/
def traceDue (s : Scheduler) : Bool := 0 < s.traceEvery ∧ s.executed % s.traceEvery = 0

/-- The trace line before the next step, if it is due. -/
def traceEntries (s : Scheduler) (m : Machine) : Except Fault (Array Log.Entry) :=
  if s.traceDue then m.observe.map fun snapshot => (s.logger.info snapshot.line).toArray
  else .ok #[]

/-- What is logged about a step that failed. -/
def failureEntries (s : Scheduler) (e : Failure) : Array Log.Entry :=
  let text := "cpu error in frame " ++ (Number.ofInt s.frames).decimal ++ ":"
  (s.logger.call .debug [.text text, .failure e]).toArray

/-- A scheduler and the emulator it runs. -/
structure Run where
  scheduler : Scheduler
  emulator : Emulator

/-- The failure of a step that the caller is told of. -/
def raised? (s : Scheduler) (f : Failure) : Option Failure :=
  if s.errorMode = .raise then some f else none

/-- Makes up to `count` steps after those that logged `log`; a failing one is the last. -/
def steps : (count : Nat) → (log : Array Log.Entry) → Run → Outcome Run
  | 0, log, run => { state := run, log }
  | count + 1, log, ⟨s, e⟩ =>
    match s.traceEntries e.machine with
    | .error f => { state := ⟨s, e⟩, failure? := some (.fault f), log }
    | .ok entries =>
      let o := e.step
      let log := log ++ entries ++ o.log
      match o.failure? with
      | none => steps count log ⟨{ s with executed := s.executed + 1 }, o.state⟩
      | some f =>
        { state := ⟨{ s with lastFailure? := some f }, o.state⟩, failure? := s.raised? f
          log := log ++ s.failureEntries f }

/-- The end of a frame: the timers tick and the frame counts. -/
def endFrame (run : Run) : Run where
  scheduler := { run.scheduler with frames := run.scheduler.frames + 1 }
  emulator := run.emulator.tickTimers

/-- One frame. -/
def stepFrame (run : Run) : Outcome Run :=
  let ⟨s, e⟩ := run
  if s.isHalted then .ok ⟨s, e⟩
  else
    let s := if s.errorMode = .ignore then { s with lastFailure? := none } else s
    let o := steps s.instructionsPerFrame #[] ⟨s, e⟩
    match o.failure? with
    | some _ => o
    | none => { state := endFrame o.state, log := o.log }

/-- Up to `count` frames, none once the scheduler is halted. -/
def repeatFrames : (count : Nat) → (log : Array Log.Entry) → Run → Outcome Run
  | 0, log, run => { state := run, log }
  | count + 1, log, run =>
    if run.scheduler.isHalted then { state := run, log }
    else
      let o := stepFrame run
      let log := log ++ o.log
      match o.failure? with
      | some f => { state := o.state, failure? := some f, log }
      | none => repeatFrames count log o.state

/-- The frames whose numbers, from zero on, are below `count`. -/
def runFrames (count : Rat) (run : Run) : Outcome Run := repeatFrames count.ceil.toNat #[] run

end Scheduler

end Chip8
