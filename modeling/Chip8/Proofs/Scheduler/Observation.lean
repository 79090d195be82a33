import Chip8.Proofs.Outcome
import Chip8.Proofs.Scheduler.Run

/-!
# Watching changes nothing

Loggers, debug settings and trace lines are for whoever watches.  Runs that differ in these only
agree (`Run.Agrees`), and go on to agree whatever the host does (`Run.agrees_after`): the machine,
the counts and the failures that the host is told of are the same.

What a trace line shows of a machine is there wherever the program counter is and whatever word it
meets (`Machine.Shown`).
-/

namespace Chip8

/-! ### What a trace line shows -/

/-- The machine can be shown, also where there is no word and where no instruction has the word. -/
structure Machine.Shown (m : Machine) : Prop where
  observe_eq : m.observe = .ok m.snapshot
  op?_eq {size : Nat} {pc : Int} (hsize : m.memory.size = .ofInt size) (hpc : m.pc = .ofInt pc) :
    m.snapshot.op? =
      if 0 ≤ pc ∧ pc + 2 ≤ size then some (.ofInt (m.memory.wordAt pc.toNat)) else none
  undecodable {word : Int} {f : Fault} (hword : m.snapshot.op? = some (.ofInt word))
    (h : Instruction.decode word = .error f) : Instruction.disassemble (.ofInt word) = "???"

theorem Machine.Traceable.shown {m : Machine} (hm : m.Traceable) : m.Shown := by
  refine ⟨hm.observe_eq, ?_, fun _ => disassemble_of_decode_eq_error⟩
  intro size pc hsize hpc
  obtain ⟨k, hk, hlt⟩ := hm.pc
  obtain rfl : k = pc := Number.ofInt_injective (hk.symm.trans hpc)
  exact op?_snapshot hsize hpc hlt

/-! ### Emulators -/

/-- The logger that is told of a program has no part in loading it. -/
theorem Machine.alike_loadProgram (m : Machine) (logger logger' : Logger) (rom : List UInt8) :
    Outcome.Alike Eq (m.loadProgram logger rom) (m.loadProgram logger' rom) := by
  unfold loadProgram
  cases Rom.validate rom.length with
  | error f => exact ⟨rfl, rfl⟩
  | ok _ =>
    cases m.memory.load start rom with
    | error f => exact ⟨rfl, rfl⟩
    | ok memory => exact ⟨rfl, rfl⟩

theorem Machine.alike_loggedStep (m : Machine) (logger logger' : Logger) :
    Outcome.Alike Eq (m.loggedStep logger) (m.loggedStep logger') := by
  refine ⟨?_, ?_⟩
  · rw [state_loggedStep, state_loggedStep]
  · rw [failure?_loggedStep, failure?_loggedStep]

namespace Emulator

/-- Emulators that may differ in their settings and loggers only. -/
structure Agrees (e e' : Emulator) : Prop where
  machine_eq : e.machine = e'.machine
  rom?_eq : e.rom? = e'.rom?

variable {e e' : Emulator}

theorem agrees_with (e : Emulator) (config : Config) (logger : Logger) :
    e.Agrees { e with config, logger } :=
  ⟨rfl, rfl⟩

theorem alike_reset (h : e.Agrees e') : Outcome.Alike Agrees e.reset e'.reset := by
  obtain ⟨machine, config, logger, rom?⟩ := e
  obtain ⟨machine', config', logger', rom?'⟩ := e'
  obtain ⟨hmachine, hrom⟩ := h
  obtain rfl : machine = machine' := hmachine
  obtain rfl : rom? = rom?' := hrom
  have hrestarted : Outcome.Alike Eq machine.reset machine.reset := ⟨rfl, rfl⟩
  rw [reset, reset]
  refine (hrestarted.andThen ?_).map ?_
  · rintro m _ rfl
    cases rom? with
    | none => exact .ok rfl
    | some rom => exact m.alike_loadProgram logger logger' rom
  · rintro m _ rfl
    exact ⟨rfl, rfl⟩

theorem alike_perform (h : e.Agrees e') (event : Event) :
    Outcome.Alike Agrees (e.perform event) (e'.perform event) := by
  have hkeypad : e.machine.keypad = e'.machine.keypad := congrArg Machine.keypad h.machine_eq
  have hkeys (keypad : Keypad) : (e.withKeypad keypad).Agrees (e'.withKeypad keypad) := by
    refine ⟨?_, h.rom?_eq⟩
    simp only [withKeypad, h.machine_eq]
  cases event with
  | load rom =>
    rw [perform, perform, load, load]
    cases Rom.validate rom.length with
    | error f => exact ⟨h, rfl⟩
    | ok _ => exact alike_reset ⟨h.machine_eq, rfl⟩
  | reset => exact alike_reset h
  | step =>
    rw [perform, perform, step, step, ← h.machine_eq]
    refine (e.machine.alike_loggedStep e.logger e'.logger).map ?_
    rintro m _ rfl
    exact ⟨rfl, h.rom?_eq⟩
  | tick => exact .ok ⟨congrArg Machine.tickTimers h.machine_eq, h.rom?_eq⟩
  | setKey key pressed =>
    rw [perform, perform, hkeypad]
    exact .guarded h _ hkeys
  | setKeys update =>
    rw [perform, perform, hkeypad]
    exact ⟨hkeys _, rfl⟩
  | keyEvent keymap code pressed =>
    rw [perform, perform, hkeypad]
    exact .guarded h _ fun result => hkeys result.1
  | releaseKeys => exact .ok (hkeys _)

theorem agrees_run (events : List Event) (h : e.Agrees e') :
    (e.run events).Agrees (e'.run events) := by
  induction events generalizing e e' with
  | nil => exact h
  | cons event rest ih => exact ih (alike_perform h event).state

theorem stretch_eq_of_agrees (count : Nat) (h : e.Agrees e') :
    e.stretch count = e'.stretch count := by
  induction count generalizing e e' with
  | zero => rfl
  | succ count ih =>
    have hstep := alike_perform h .step
    have hfailure : e.step.failure? = e'.step.failure? := hstep.failure?_eq
    have hrest : e.step.state.stretch count = e'.step.state.stretch count := ih hstep.state
    rw [stretch, stretch, hfailure, hrest]

end Emulator

/-! ### Runs -/

namespace Scheduler

/-- Runs that may differ in what is logged only, and in how. -/
structure Run.Agrees (r r' : Run) : Prop where
  emulator : r.emulator.Agrees r'.emulator
  length_eq : r.scheduler.instructionsPerFrame = r'.scheduler.instructionsPerFrame
  mode_eq : r.scheduler.errorMode = r'.scheduler.errorMode
  executed_eq : r.scheduler.executed = r'.scheduler.executed
  frames_eq : r.scheduler.frames = r'.scheduler.frames
  lastFailure?_eq : r.scheduler.lastFailure? = r'.scheduler.lastFailure?

namespace Run

variable {r r' : Run}

theorem Agrees.isHalted_eq (h : r.Agrees r') : r.scheduler.isHalted = r'.scheduler.isHalted := by
  simp only [isHalted, h.mode_eq, h.lastFailure?_eq]

theorem Agrees.canTrace (h : r.Agrees r') (hm : r.emulator.machine.Traceable) :
    r.CanTrace ∧ r'.CanTrace :=
  ⟨.inr hm, .inr (h.emulator.machine_eq ▸ hm)⟩

theorem Agrees.next (h : r.Agrees r') : r.next.Agrees r'.next ∧ r.raised? = r'.raised? := by
  have hstretch : r.stretch = r'.stretch := by
    rw [stretch, stretch, h.length_eq]
    exact Emulator.stretch_eq_of_agrees _ h.emulator
  have hrule : r.scheduler.raised? = r'.scheduler.raised? := by
    funext f
    rw [Scheduler.raised?, Scheduler.raised?, h.mode_eq]
  have hraised : r.raised? = r'.raised? := by rw [raised?, raised?, hstretch, hrule]
  have hticks : r.ticks = r'.ticks := by rw [ticks, ticks, hraised]
  have hdoings : r.doings = r'.doings := by rw [doings, doings, hstretch, hticks]
  refine ⟨?_, hraised⟩
  constructor
  · simp only [Run.next, hdoings]
    exact Emulator.agrees_run _ h.emulator
  · exact h.length_eq
  · exact h.mode_eq
  · simp only [Run.next, h.executed_eq, hstretch]
  · simp only [Run.next, h.frames_eq, hticks]
  · simp only [Run.next, h.mode_eq, h.lastFailure?_eq, hstretch]

theorem alike_stepFrame (h : r.Agrees r') (hm : r.emulator.machine.Traceable) :
    Outcome.Alike Agrees (stepFrame r) (stepFrame r') := by
  obtain ⟨htrace, htrace'⟩ := h.canTrace hm
  cases hhalted : r.scheduler.isHalted with
  | true =>
    rw [stepFrame_of_halted hhalted, stepFrame_of_halted (h.isHalted_eq ▸ hhalted)]
    exact .ok h
  | false =>
    obtain ⟨hfailure, hstate⟩ := stepFrame_eq htrace hhalted
    obtain ⟨hfailure', hstate'⟩ := stepFrame_eq htrace' (h.isHalted_eq ▸ hhalted)
    refine ⟨?_, ?_⟩
    · rw [hstate, hstate']
      exact h.next.1
    · rw [hfailure, hfailure']
      exact h.next.2

theorem alike_repeatFrames (count : Nat) (log log' : Array Log.Entry) (h : r.Agrees r')
    (hm : r.emulator.machine.Traceable) :
    Outcome.Alike Agrees (repeatFrames count log r) (repeatFrames count log' r') := by
  induction count generalizing r r' log log' with
  | zero => exact ⟨h, rfl⟩
  | succ count ih =>
    have hframe := alike_stepFrame h hm
    rw [repeatFrames, repeatFrames, ← h.isHalted_eq]
    cases hhalted : r.scheduler.isHalted with
    | true => exact ⟨h, rfl⟩
    | false =>
      simp only [Bool.false_eq_true, if_false, ← hframe.failure?_eq]
      cases (stepFrame r).failure? with
      | some f => exact ⟨hframe.state, rfl⟩
      | none => exact ih _ _ hframe.state ((leads_stepFrame (.inr hm)).traceable hm)

theorem alike_perform (h : r.Agrees r') (hm : r.emulator.machine.Traceable) (event : Event) :
    Outcome.Alike Agrees (r.perform event) (r'.perform event) := by
  cases event with
  | frame => exact alike_stepFrame h hm
  | frames count => exact alike_repeatFrames _ #[] #[] h hm
  | host event =>
    refine (Emulator.alike_perform h.emulator event).map fun e e' he => ?_
    exact ⟨he, h.length_eq, h.mode_eq, h.executed_eq, h.frames_eq, h.lastFailure?_eq⟩

/-- The failures that the host is told of, event by event. -/
def thrown : List Event → Run → List (Option Failure)
  | [], _ => []
  | event :: rest, run => (run.perform event).failure? :: (run.perform event).state.thrown rest

theorem agrees_after (events : List Event) (h : r.Agrees r')
    (hm : r.emulator.machine.Traceable) :
    (r.after events).Agrees (r'.after events) ∧ r.thrown events = r'.thrown events := by
  induction events generalizing r r' with
  | nil => exact ⟨h, rfl⟩
  | cons event rest ih =>
    have hfirst := alike_perform h hm event
    obtain ⟨hagrees, hthrown⟩ := ih hfirst.state ((leads_perform (.inr hm) event).traceable hm)
    refine ⟨hagrees, ?_⟩
    rw [thrown, thrown, hfirst.failure?_eq, hthrown]

/-- Runs that differ in settings, loggers and trace lines only stay in step whatever the host does:
machine, counts, halting, the last failure and the failures that are raised are the same.  A machine
can be shown after any step of theirs. -/
theorem unobserved (events : List Event) (h : r.Agrees r')
    (hm : r.emulator.machine.Traceable) :
    (r.after events).Agrees (r'.after events) ∧
      (r.after events).scheduler.isHalted = (r'.after events).scheduler.isHalted ∧
      r.thrown events = r'.thrown events ∧
      ∀ i, ((r.after events).emulator.stepped i).machine.Shown := by
  obtain ⟨hagrees, hthrown⟩ := agrees_after events h hm
  refine ⟨hagrees, hagrees.isHalted_eq, hthrown, fun i => ?_⟩
  have hreached := (leads_after events (.inr hm)).traceable hm
  exact (Emulator.traceable_run _ hreached).shown

/-- A scheduler that logs each step beside one that logs nothing, on an emulator with other
settings. -/
theorem unobserved_faulty :
    let quiet : SchedulerOptions :=
      { instructionsPerFrame? := some (.ofInt 2), errorMode? := some .record }
    let other : Emulator :=
      { Emulator.faulty with
        config := { Config.standard with debug := true }
        logger := .console "chip8" true }
    let watched := Run.new Emulator.faulty { quiet with traceEvery? := some (.ofInt 1) }
    let unwatched := Run.new other quiet
    let events : List Event := [.frames 2, .host .releaseKeys, .frame]
    watched.thrown events = unwatched.thrown events ∧
      (watched.after events).emulator.machine = (unwatched.after events).emulator.machine := by
  intro quiet other watched unwatched events
  have hother : Emulator.faulty.Agrees other := Emulator.agrees_with _ _ _
  have hstart : watched.Agrees unwatched := ⟨hother, rfl, rfl, rfl, rfl, rfl⟩
  obtain ⟨hagrees, -, hthrown, -⟩ := unobserved events hstart Emulator.traceable_faulty
  exact ⟨hthrown, hagrees.emulator.machine_eq⟩

end Run

end Scheduler

end Chip8
