import Chip8.Proofs.Emulator.Clock
import Chip8.Proofs.Scheduler.Run

/-!
# Error modes side by side

Up to the first step that fails, the error mode makes no difference (`calls_of_succeed`).  At that
step the modes part (`calls_of_fault`): `raise` leaves the frame at once, the others tick the timers
and count the frame, and `record` then makes no more (`calls_modes`).
-/

namespace Chip8.Scheduler.Run

open Emulator (Succeed Makes)

/-- A run that remembers no failure, before frames of so many steps. -/
structure Ready (run : Run) (length : Nat) : Prop where
  canTrace : run.CanTrace
  none_eq : run.scheduler.lastFailure? = none
  length_eq : run.scheduler.instructionsPerFrame = length
  one_le : 1 ≤ length

/-- A run after whole frames without a failure. -/
def wholeFrames (run : Run) (length count : Nat) : Run where
  scheduler :=
    { run.scheduler with
      executed := run.scheduler.executed + count * length
      frames := run.scheduler.frames + count }
  emulator := run.emulator.clocked length (count * length)

/-- A run when the step of a number has failed, the first that does, within its frame. -/
def cutAt (run : Run) (length i : Nat) (f : Failure) : Run where
  scheduler :=
    { run.scheduler with
      lastFailure? := some f
      executed := run.scheduler.executed + i
      frames := run.scheduler.frames + i / length }
  emulator := (run.emulator.clocked length i).step.state

variable {run : Run} {length : Nat}

theorem ready_new {e : Emulator} (options : SchedulerOptions)
    (htrace : (Run.new e options).CanTrace) :
    (Run.new e options).Ready (Run.new e options).scheduler.instructionsPerFrame :=
  ⟨htrace, rfl, rfl, Nat.le_max_left 1 _⟩

theorem Ready.wholeFrames (h : run.Ready length) (count : Nat) :
    (run.wholeFrames length count).Ready length := by
  refine ⟨?_, h.none_eq, h.length_eq, h.one_le⟩
  rcases h.canTrace with hnever | hmachine
  · exact .inl hnever
  · exact .inr (Emulator.traceable_clocked hmachine _)

theorem Ready.isHalted_eq (h : run.Ready length) : run.scheduler.isHalted = false := by
  simp [isHalted, h.none_eq]

/-! ### One frame -/

/-- A frame whose steps all succeed. -/
theorem stepFrame_of_succeed (h : run.Ready length) (hsucceed : Succeed run.emulator.stepped length) :
    (stepFrame run).failure? = none ∧
      (stepFrame run).state =
        ⟨{ run.scheduler with
            executed := run.scheduler.executed + length
            frames := run.scheduler.frames + 1 },
          (run.emulator.stepped length).tickTimers⟩ := by
  obtain ⟨hfailure, hstate⟩ := stepFrame_eq h.canTrace h.isHalted_eq
  have hstretch : run.stretch = ⟨length, none⟩ := by
    rw [stretch, h.length_eq]
    exact Emulator.stretch_eq (.all hsucceed)
  have hraised : run.raised? = none := by
    rw [raised?, hstretch]
    rfl
  refine ⟨hfailure.trans hraised, ?_⟩
  rw [hstate]
  simp only [next, doings, ticks, hraised, hstretch, h.none_eq, Option.or_none, ite_self,
    Emulator.run_append]
  rfl

/-- A frame that a step cuts short. -/
theorem stepFrame_of_fault (h : run.Ready length) {j : Nat} {f : Failure}
    (hmakes : Makes run.emulator.stepped length ⟨j, some f⟩) :
    (stepFrame run).failure? = run.scheduler.raised? f ∧
      (stepFrame run).state =
        let cut : Run :=
          ⟨{ run.scheduler with
              lastFailure? := some f
              executed := run.scheduler.executed + j },
            (run.emulator.stepped j).step.state⟩
        if run.scheduler.errorMode = .raise then cut else endFrame cut := by
  obtain ⟨hfailure, hstate⟩ := stepFrame_eq h.canTrace h.isHalted_eq
  have hstretch : run.stretch = ⟨j, some f⟩ := by
    rw [stretch, h.length_eq]
    exact Emulator.stretch_eq hmakes
  have hraised : run.raised? = run.scheduler.raised? f := by
    rw [raised?, hstretch]
    rfl
  refine ⟨hfailure.trans hraised, ?_⟩
  rw [hstate, Emulator.step_stepped]
  simp only [next, doings, ticks, hraised, hstretch, Option.some_or, ite_self,
    Emulator.run_append, Scheduler.raised?]
  split <;> rfl

/-! ### Frames in a row -/

/-- Whole frames without a failure, in any mode. -/
theorem calls_of_succeed (h : run.Ready length) {count : Nat}
    (hsucceed : Succeed (run.emulator.clocked length) (count * length)) :
    (run.calls count).failure? = none ∧
      (run.calls count).state = run.wholeFrames length count := by
  induction count with
  | zero =>
    refine ⟨rfl, ?_⟩
    simp only [calls, Outcome.ok, Run.wholeFrames, Nat.zero_mul, Nat.add_zero, Emulator.clocked]
  | succ count ih =>
    have hless := Nat.mul_le_mul_right length (Nat.le_succ count)
    obtain ⟨hfailure, hstate⟩ := ih (Succeed.of_le hsucceed hless)
    obtain ⟨hlast, hnext⟩ :=
      stepFrame_of_succeed (h.wholeFrames count) (Emulator.succeed_frame hsucceed)
    rw [calls, Outcome.andThen_of_success stepFrame hfailure, hstate]
    refine ⟨hlast, hnext.trans ?_⟩
    rw [Run.wholeFrames, Run.wholeFrames, Emulator.clocked_frame count h.one_le]
    simp only [Nat.succ_mul, Nat.add_assoc]

section

variable {count i : Nat} {f : Failure}

/-- Frames up to and with the one that the first failing step cuts short. -/
theorem calls_of_fault (h : run.Ready length)
    (hmakes : Makes (run.emulator.clocked length) count ⟨i, some f⟩) :
    (run.calls (i / length + 1)).failure? = run.scheduler.raised? f ∧
      (run.calls (i / length + 1)).state =
        if run.scheduler.errorMode = .raise then run.cutAt length i f
        else endFrame (run.cutAt length i f) := by
  have hj : i % length < length := Nat.mod_lt i h.one_le
  have hi : i / length * length + i % length = i := Nat.div_add_mod' i length
  have hsucceed := hmakes.succeed_of_le (Nat.div_mul_le_self i length)
  have hcut := Emulator.makes_frame hj (hi.symm ▸ hmakes)
  obtain ⟨hfailure, hstate⟩ := calls_of_succeed h hsucceed
  obtain ⟨hlast, hnext⟩ := stepFrame_of_fault (h.wholeFrames _) hcut
  rw [calls, Outcome.andThen_of_success stepFrame hfailure, hstate]
  refine ⟨hlast, hnext.trans ?_⟩
  simp only [Run.wholeFrames, cutAt, ← Emulator.clocked_within _ hj, Nat.add_assoc, hi]

theorem frame_lt_of_fault (h : run.Ready length)
    (hmakes : Makes (run.emulator.clocked length) (count * length) ⟨i, some f⟩) :
    i / length + 1 ≤ count := by
  obtain _ | ⟨hlt, -, -⟩ := hmakes
  exact (Nat.div_lt_iff_lt_mul h.one_le).2 hlt

/-- No other frame is made after one that raises its failure. -/
theorem calls_eq_of_raise (h : run.Ready length) (hmode : run.scheduler.errorMode = .raise)
    (hmakes : Makes (run.emulator.clocked length) (count * length) ⟨i, some f⟩) :
    run.calls count = run.calls (i / length + 1) := by
  have hfailure := (calls_of_fault h hmakes).1
  rw [Scheduler.raised?, if_pos hmode] at hfailure
  have hstays := Outcome.andThen_of_failure stepFrame (Option.isSome_of_eq_some hfailure)
  exact calls_of_le hstays (frame_lt_of_fault h hmakes)

theorem calls_of_raise (h : run.Ready length) (hmode : run.scheduler.errorMode = .raise)
    (hmakes : Makes (run.emulator.clocked length) (count * length) ⟨i, some f⟩) :
    (run.calls count).failure? = some f ∧ (run.calls count).state = run.cutAt length i f := by
  obtain ⟨hfailure, hstate⟩ := calls_of_fault h hmakes
  rw [Scheduler.raised?, if_pos hmode] at hfailure
  rw [if_pos hmode] at hstate
  rw [calls_eq_of_raise h hmode hmakes]
  exact ⟨hfailure, hstate⟩

/-- A scheduler that records completes the frame, and is halted from then on. -/
theorem calls_of_record (h : run.Ready length) (hmode : run.scheduler.errorMode = .record)
    (hmakes : Makes (run.emulator.clocked length) (count * length) ⟨i, some f⟩) :
    (run.calls count).failure? = none ∧
      (run.calls count).state = endFrame (run.cutAt length i f) := by
  obtain ⟨hfailure, hstate⟩ := calls_of_fault h hmakes
  have hne : run.scheduler.errorMode ≠ .raise := by
    rw [hmode]
    decide
  rw [Scheduler.raised?, if_neg hne] at hfailure
  rw [if_neg hne] at hstate
  have hhalted : (run.calls (i / length + 1)).state.scheduler.isHalted = true := by
    rw [hstate]
    exact decide_eq_true ⟨hmode, rfl⟩
  have hstays : (run.calls (i / length + 1)).andThen stepFrame = run.calls (i / length + 1) := by
    rw [Outcome.andThen_of_success stepFrame hfailure, stepFrame_of_halted hhalted,
      ← Outcome.andThen_of_success Outcome.ok hfailure, Outcome.andThen_ok]
  rw [calls_of_le hstays (frame_lt_of_fault h hmakes)]
  exact ⟨hfailure, hstate⟩

end

/-- New schedulers for one emulator, which differ in their error modes only, agree up to the first
step that fails.  After it, `raise` has left its frame, `record` has ended the same frame as usual
and made no other, and `ignore` agrees with `record` at the end of that frame. -/
theorem calls_modes (e : Emulator) (options : SchedulerOptions)
    (htrace : (Run.new e options).CanTrace) (count : Nat) :
    let start (mode : ErrorMode) := Run.new e { options with errorMode? := some mode }
    let length := (Run.new e options).scheduler.instructionsPerFrame
    (Succeed (e.clocked length) (count * length) →
      ∀ mode, ((start mode).calls count).failure? = none ∧
        ((start mode).calls count).state.emulator = e.clocked length (count * length) ∧
        ((start mode).calls count).state.scheduler =
          { (start mode).scheduler with executed := count * length, frames := count }) ∧
    ∀ (i : Nat) (f : Failure), Makes (e.clocked length) (count * length) ⟨i, some f⟩ →
      let thrown := (start .raise).calls count
      let recorded := (start .record).calls count
      let ignored := (start .ignore).calls (i / length + 1)
      thrown.failure? = some f ∧ recorded.failure? = none ∧ ignored.failure? = none ∧
        thrown.state.scheduler.lastFailure? = some f ∧
        thrown.state.scheduler.executed = i ∧ thrown.state.scheduler.frames = i / length ∧
        recorded.state.emulator = thrown.state.emulator.tickTimers ∧
        recorded.state.scheduler =
          { thrown.state.scheduler with
            errorMode := .record
            frames := thrown.state.scheduler.frames + 1 } ∧
        ignored.state.emulator = recorded.state.emulator ∧
        ignored.state.scheduler = { recorded.state.scheduler with errorMode := .ignore } := by
  intro start length
  have hready (mode : ErrorMode) : (start mode).Ready length := ready_new _ htrace
  constructor
  · intro hsucceed mode
    obtain ⟨hfailure, hstate⟩ := calls_of_succeed (hready mode) hsucceed
    rw [hstate]
    refine ⟨hfailure, rfl, ?_⟩
    simp only [Run.wholeFrames, start, Run.new, Scheduler.new, Nat.zero_add]
  · intro i f hmakes thrown recorded ignored
    obtain ⟨hthrown, hthrown_state⟩ := calls_of_raise (hready .raise) rfl hmakes
    obtain ⟨hrecorded, hrecorded_state⟩ := calls_of_record (hready .record) rfl hmakes
    obtain ⟨hignored, hignored_state⟩ := calls_of_fault (hready .ignore) hmakes
    refine ⟨hthrown, hrecorded, hignored, ?_⟩
    rw [hthrown_state, hrecorded_state, hignored_state]
    exact ⟨rfl, Nat.zero_add i, Nat.zero_add _, rfl, rfl, rfl, rfl⟩

/-- With one step for each frame, the second frame of three fails. -/
theorem calls_modes_faulty :
    let options : SchedulerOptions := { instructionsPerFrame? := some (.ofInt 1) }
    let start (mode : ErrorMode) :=
      Run.new Emulator.faulty { options with errorMode? := some mode }
    ∃ f, Makes (Emulator.faulty.clocked 1) (3 * 1) ⟨1, some f⟩ ∧
      ((start .raise).calls 3).failure? = some f ∧
      ((start .record).calls 3).failure? = none ∧
      ((start .record).calls 3).state.emulator =
        ((start .raise).calls 3).state.emulator.tickTimers := by
  intro options start
  have hsteps : (Emulator.faulty.clocked 1 0).step.failure? = none ∧
      (Emulator.faulty.clocked 1 1).step.failure?.isSome := by decide +kernel
  obtain ⟨f, hf⟩ := Option.isSome_iff_exists.1 hsteps.2
  have hfirst : Succeed (Emulator.faulty.clocked 1) 1 := by
    intro i hi
    obtain rfl := Nat.lt_one_iff.1 hi
    exact hsteps.1
  have hmakes : Makes (Emulator.faulty.clocked 1) (3 * 1) ⟨1, some f⟩ :=
    .cutShort (by decide) hfirst hf
  obtain ⟨-, hfault⟩ :=
    calls_modes Emulator.faulty options (.inr Emulator.traceable_faulty) 3
  obtain ⟨hthrown, hrecorded, -, -, -, -, hticked, -⟩ := hfault 1 f hmakes
  exact ⟨f, hmakes, hthrown, hrecorded, by simpa only [start] using hticked⟩

end Chip8.Scheduler.Run
