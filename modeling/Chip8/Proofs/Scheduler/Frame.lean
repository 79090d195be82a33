import Chip8.Proofs.Emulator.Stretch
import Chip8.Scheduler

/-!
# One frame

What a frame does is said once and without its loop (`stepFrame_eq`): the steps of a stretch, and a
tick unless it raises the failure of the last step.  Whatever is said of frames elsewhere rests on
this.

A trace line could fail only where the machine cannot be shown (`Run.CanTrace`).  No frame leads
there (`canTrace_next`).
-/

namespace Chip8.Scheduler

namespace Run

/-- A new scheduler for an emulator. -/
def new (e : Emulator) (options : SchedulerOptions) : Run := ⟨.new e.config options, e⟩

/-- No trace lines are wanted, or the machine can be shown. -/
def CanTrace (run : Run) : Prop :=
  run.scheduler.traceEvery = 0 ∨ run.emulator.machine.Traceable

/-- The steps that the next frame makes. -/
def stretch (run : Run) : Stretch := run.emulator.stretch run.scheduler.instructionsPerFrame

/-- The failure that the next frame raises. -/
def raised? (run : Run) : Option Failure := run.stretch.failure?.bind run.scheduler.raised?

/-- How often the next frame ticks the timers. -/
def ticks (run : Run) : Nat := if run.raised?.isSome then 0 else 1

/-- What the next frame does to the emulator. -/
def doings (run : Run) : List Emulator.Event :=
  List.replicate run.stretch.attempts .step ++ List.replicate run.ticks .tick

/-- The run after the next frame. -/
def next (run : Run) : Run where
  scheduler :=
    { run.scheduler with
      lastFailure? :=
        if run.scheduler.errorMode = .ignore then run.stretch.failure?
        else run.stretch.failure?.or run.scheduler.lastFailure?
      executed := run.scheduler.executed + run.stretch.succeeded
      frames := run.scheduler.frames + run.ticks }
  emulator := run.emulator.run run.doings

end Run

/-! ### Trace lines -/

/-- The trace line before the next step, where it can be taken. -/
def dueEntries (s : Scheduler) (m : Machine) : Array Log.Entry :=
  if s.traceDue then (s.logger.info m.snapshot.line).toArray else #[]

theorem traceEntries_eq {s : Scheduler} {e : Emulator} (h : Run.CanTrace ⟨s, e⟩) :
    s.traceEntries e.machine = .ok (s.dueEntries e.machine) := by
  rw [traceEntries, dueEntries]
  cases hdue : s.traceDue with
  | false => rfl
  | true =>
    rcases h with hnever | hmachine
    · -- a line is due only where lines are wanted
      simp only at hnever
      simp [traceDue, hnever] at hdue
    · rw [if_pos rfl, if_pos rfl, hmachine.observe_eq]
      rfl

/-! ### The steps of a frame -/

theorem canTrace_step {s : Scheduler} {e : Emulator} (h : Run.CanTrace ⟨s, e⟩) :
    Run.CanTrace ⟨{ s with executed := s.executed + 1 }, e.step.state⟩ := by
  rcases h with hnever | hmachine
  · exact .inl hnever
  · exact .inr (Emulator.traceable_perform hmachine .step)

theorem steps_eq (count : Nat) (log : Array Log.Entry) {s : Scheduler} {e : Emulator}
    (h : Run.CanTrace ⟨s, e⟩) :
    (steps count log ⟨s, e⟩).failure? = (e.stretch count).failure?.bind s.raised? ∧
      (steps count log ⟨s, e⟩).state =
        ⟨{ s with
            lastFailure? := (e.stretch count).failure?.or s.lastFailure?
            executed := s.executed + (e.stretch count).succeeded },
          e.stepped (e.stretch count).attempts⟩ := by
  induction count generalizing s e log with
  | zero => exact ⟨rfl, rfl⟩
  | succ count ih =>
    rw [steps, traceEntries_eq h, Emulator.stretch]
    cases hfailure : e.step.failure? with
    | some f =>
      simp only [hfailure, Option.elim_some]
      exact ⟨rfl, rfl⟩
    | none =>
      simp only [hfailure, Option.elim_none]
      obtain ⟨hraised, hstate⟩ := ih (log ++ s.dueEntries e.machine ++ e.step.log)
        (canTrace_step h)
      have hcount (rest : Stretch) :
          s.executed + 1 + rest.succeeded = s.executed + rest.cons.succeeded := by
        rw [Stretch.cons, Nat.add_assoc, Nat.add_comm 1]
      refine ⟨hraised, ?_⟩
      rw [hstate, Stretch.attempts_cons, ← hcount]
      rfl

/-! ### Frames -/

theorem stepFrame_of_halted {run : Run} (h : run.scheduler.isHalted = true) :
    stepFrame run = .ok run := by
  simp only [stepFrame, h]
  rfl

/-- A scheduler when a frame begins: with mode `ignore` it has forgotten the last failure. -/
def cleared (s : Scheduler) : Scheduler :=
  { s with lastFailure? := if s.errorMode = .ignore then none else s.lastFailure? }

/-- The steps and the end of a frame. -/
def frame (run : Run) : Outcome Run :=
  let o := steps run.scheduler.instructionsPerFrame #[] run
  match o.failure? with
  | some _ => o
  | none => { state := endFrame o.state, log := o.log }

theorem frame_of_success {run : Run}
    (h : (steps run.scheduler.instructionsPerFrame #[] run).failure? = none) :
    frame run =
      { state := endFrame (steps run.scheduler.instructionsPerFrame #[] run).state
        log := (steps run.scheduler.instructionsPerFrame #[] run).log } := by
  simp only [frame, h]

theorem frame_of_failure {run : Run} {f : Failure}
    (h : (steps run.scheduler.instructionsPerFrame #[] run).failure? = some f) :
    frame run = steps run.scheduler.instructionsPerFrame #[] run := by
  simp only [frame, h]

/-- The end of a frame logs nothing. -/
theorem log_frame (run : Run) :
    (frame run).log = (steps run.scheduler.instructionsPerFrame #[] run).log := by
  cases h : (steps run.scheduler.instructionsPerFrame #[] run).failure? with
  | none => rw [frame_of_success h]
  | some f => rw [frame_of_failure h]

theorem stepFrame_of_going {run : Run} (hgoes : run.scheduler.isHalted = false) :
    stepFrame run = frame ⟨run.scheduler.cleared, run.emulator⟩ := by
  obtain ⟨s, e⟩ := run
  have hne : ¬ s.isHalted = true := by rw [hgoes]; exact Bool.false_ne_true
  have hcleared : (if s.errorMode = .ignore then { s with lastFailure? := none } else s) =
      s.cleared := by
    unfold cleared
    split <;> rfl
  exact (if_neg hne).trans (congrArg (fun s => frame ⟨s, e⟩) hcleared)

theorem or_cleared (s : Scheduler) (f? : Option Failure) :
    f?.or s.cleared.lastFailure? =
      if s.errorMode = .ignore then f? else f?.or s.lastFailure? := by
  unfold cleared
  split
  · exact Option.or_none
  · rfl

/-- A frame that is not skipped makes its steps and its tick, and keeps the books. -/
theorem stepFrame_eq {run : Run} (h : run.CanTrace) (hgoes : run.scheduler.isHalted = false) :
    (stepFrame run).failure? = run.raised? ∧ (stepFrame run).state = run.next := by
  obtain ⟨s, e⟩ := run
  have htrace : Run.CanTrace ⟨s.cleared, e⟩ := h
  obtain ⟨hfailure, hstate⟩ := steps_eq s.cleared.instructionsPerFrame #[] htrace
  have hraised : (e.stretch s.cleared.instructionsPerFrame).failure?.bind s.cleared.raised? =
      Run.raised? ⟨s, e⟩ := rfl
  rw [hraised] at hfailure
  rw [or_cleared] at hstate
  rw [stepFrame_of_going hgoes]
  cases hcase : Run.raised? ⟨s, e⟩ with
  | none =>
    rw [hcase] at hfailure
    rw [frame_of_success hfailure]
    simp only [hstate, Run.next, Run.doings, Run.ticks, hcase, Emulator.run_append]
    exact ⟨trivial, rfl⟩
  | some f =>
    rw [hcase] at hfailure
    rw [frame_of_failure hfailure]
    simp only [hstate, Run.next, Run.doings, Run.ticks, hcase, Emulator.run_append]
    exact ⟨hfailure, rfl⟩

theorem canTrace_next {run : Run} (h : run.CanTrace) : run.next.CanTrace := by
  rcases h with hnever | hmachine
  · exact .inl hnever
  · exact .inr (Emulator.traceable_run _ hmachine)

end Chip8.Scheduler
