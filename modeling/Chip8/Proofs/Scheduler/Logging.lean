import Chip8.Proofs.Scheduler.Modes

/-!
# What a scheduler logs

Each step logs its trace line, if one is due, and then the notes of the emulator (`entriesAt`); a
failure is noted after the step that it ended.  The number that decides whether a line is due is the
count of steps that succeeded, so over whole frames the lines stand at the multiples of the distance
(`log_calls_of_succeed`, `log_calls_of_raise`).
-/

namespace Chip8

/-! ### Notes of a step -/

/-- The instructions themselves log nothing. -/
theorem Machine.log_execute (ins : Instruction Number) (m : Machine) :
    (m.execute ins).log = #[] := by
  cases ins <;> simp only [execute, Outcome.ok, Outcome.log_guarded]
  case ret => cases m.stack.pop? <;> rfl
  case call => cases m.stack.push? m.pc.toUInt16 <;> rfl
  case waitKey => cases m.keypad.firstPressed? <;> simp only [Outcome.log_guarded]
  case random =>
    generalize m.random.next = drawn
    obtain ⟨answer, random⟩ := drawn
    cases answer <;> simp only [Outcome.log_guarded]

theorem Machine.log_step (m : Machine) : m.step.log = #[] := by
  rw [step]
  cases m.fetch with
  | error f => rfl
  | ok op =>
    simp only [proceed, executeWord, Outcome.withContext]
    cases Instruction.decode op with
    | error f => rfl
    | ok ins => exact log_execute _ _

/-- A call at level debug is not recorded as one at level info. -/
theorem Logger.channel_ne_of_debug {logger : Logger} {args : List Log.Arg} {entry : Log.Entry}
    (h : entry ∈ logger.call .debug args) : entry.channel ≠ .recorded .info := by
  obtain ⟨debugEnabled, sink⟩ := logger
  cases sink with
  | recorder =>
    obtain rfl := List.mem_singleton.1 h
    exact fun heq => nomatch heq
  | console tag =>
    simp only [call] at h
    split at h
    · cases h
    · obtain rfl := List.mem_singleton.1 h
      exact fun heq => nomatch heq

theorem Emulator.channel_ne_of_step {e : Emulator} {entry : Log.Entry}
    (h : entry ∈ e.step.log) : entry.channel ≠ .recorded .info := by
  have hlog : e.step.log = (e.machine.loggedStep e.logger).log := rfl
  rw [hlog, Machine.loggedStep] at h
  cases hfailure : e.machine.step.failure? with
  | some f =>
    simp only [hfailure, Machine.log_step] at h
    exact absurd h (Array.not_mem_empty entry)
  | none =>
    simp only [hfailure, Machine.pendingNote] at h
    split at h
    · exact Logger.channel_ne_of_debug (List.mem_toArray.1 h)
    · exact absurd h (Array.not_mem_empty entry)

namespace Scheduler

open Emulator (Succeed Makes)

/-- What is logged at a step from a row of emulators: the trace line if it is due, and the notes of
the step. -/
def entriesAt (s : Scheduler) (row : Nat → Emulator) (i : Nat) : List Log.Entry :=
  (dueEntries { s with executed := s.executed + i } (row i).machine ++ (row i).step.log).toList

/-- What is logged about the failure that ended a stretch, if there is one. -/
def faultEntries (s : Scheduler) (f? : Option Failure) : List Log.Entry :=
  (f?.elim #[] s.failureEntries).toList

theorem channel_ne_of_fault {s : Scheduler} {f? : Option Failure} {entry : Log.Entry}
    (h : entry ∈ s.faultEntries f?) : entry.channel ≠ .recorded .info := by
  cases f? with
  | none => cases h
  | some f => exact Logger.channel_ne_of_debug h

theorem entriesAt_succ (s : Scheduler) (row : Nat → Emulator) (i : Nat) :
    s.entriesAt row (i + 1) =
      entriesAt { s with executed := s.executed + 1 } (fun i => row (i + 1)) i := by
  have hcount : s.executed + (i + 1) = s.executed + 1 + i := by omega
  simp only [entriesAt, hcount]

theorem log_steps (count : Nat) (log : Array Log.Entry) {s : Scheduler} {e : Emulator}
    (h : Run.CanTrace ⟨s, e⟩) :
    (steps count log ⟨s, e⟩).log.toList =
      log.toList ++
        ((List.range (e.stretch count).attempts).flatMap (s.entriesAt e.stepped) ++
          s.faultEntries (e.stretch count).failure?) := by
  induction count generalizing s e log with
  | zero => exact (List.append_nil _).symm
  | succ count ih =>
    rw [steps, traceEntries_eq h, Emulator.stretch]
    have hfirst : s.entriesAt e.stepped 0 = (s.dueEntries e.machine ++ e.step.log).toList := rfl
    cases hfailure : e.step.failure? with
    | some f =>
      simp only [hfailure, Option.elim_some, Stretch.attempts, Option.isSome_some,
        Bool.toNat_true, Nat.zero_add, List.range_one, List.flatMap_singleton, hfirst,
        faultEntries, Array.toList_append, List.append_assoc]
    | none =>
      have hrest := ih (log ++ s.dueEntries e.machine ++ e.step.log)
        (canTrace_step h)
      simp only [hfailure, Option.elim_none]
      rw [hrest, Stretch.attempts_cons, List.range_succ_eq_map, List.flatMap_cons,
        List.flatMap_map, hfirst]
      simp only [entriesAt_succ, Array.toList_append, List.append_assoc]
      rfl

namespace Run

variable {run : Run} {length : Nat}

theorem log_stepFrame (h : run.Ready length) {s : Stretch}
    (hmakes : Makes run.emulator.stepped length s) :
    (stepFrame run).log.toList =
      (List.range s.attempts).flatMap (run.scheduler.entriesAt run.emulator.stepped) ++
        run.scheduler.faultEntries s.failure? := by
  have htrace : CanTrace ⟨run.scheduler.cleared, run.emulator⟩ := h.canTrace
  have hlog := log_steps run.scheduler.instructionsPerFrame #[] htrace
  rw [h.length_eq, Emulator.stretch_eq hmakes] at hlog
  have hlength : run.scheduler.cleared.instructionsPerFrame = length := h.length_eq
  rw [stepFrame_of_going h.isHalted_eq, log_frame, hlength, hlog]
  rfl

theorem entriesAt_wholeFrames (count : Nat) {j : Nat} (hj : j < length) :
    (run.wholeFrames length count).scheduler.entriesAt
        (run.wholeFrames length count).emulator.stepped j =
      run.scheduler.entriesAt (run.emulator.clocked length) (count * length + j) := by
  simp only [entriesAt, wholeFrames, ← Emulator.clocked_within count hj, Nat.add_assoc]
  rfl

/-- The steps of a frame log what the steps of all frames log that have their numbers. -/
theorem flatMap_wholeFrames (count : Nat) {steps : Nat} (hsteps : steps ≤ length) :
    (List.range (count * length + steps)).flatMap
        (run.scheduler.entriesAt (run.emulator.clocked length)) =
      (List.range (count * length)).flatMap
          (run.scheduler.entriesAt (run.emulator.clocked length)) ++
        (List.range steps).flatMap
          ((run.wholeFrames length count).scheduler.entriesAt
            (run.wholeFrames length count).emulator.stepped) := by
  rw [List.range_add, List.flatMap_append, List.flatMap_map]
  congr 1
  refine List.flatMap_congr fun j hj => ?_
  have hlt : j < length := Nat.lt_of_lt_of_le (List.mem_range.1 hj) hsteps
  exact (entriesAt_wholeFrames count hlt).symm

theorem log_calls_of_succeed (h : run.Ready length) {count : Nat}
    (hsucceed : Succeed (run.emulator.clocked length) (count * length)) :
    (run.calls count).log.toList =
      (List.range (count * length)).flatMap
        (run.scheduler.entriesAt (run.emulator.clocked length)) := by
  induction count with
  | zero =>
    rw [Nat.zero_mul]
    rfl
  | succ count ih =>
    have hless := Nat.mul_le_mul_right length (Nat.le_succ count)
    have hbefore := Succeed.of_le hsucceed hless
    obtain ⟨hfailure, hstate⟩ := calls_of_succeed h hbefore
    have hlast := log_stepFrame (h.wholeFrames count) (.all (Emulator.succeed_frame hsucceed))
    rw [calls, Outcome.andThen_of_success stepFrame hfailure, hstate, Array.toList_append,
      ih hbefore, hlast, Nat.succ_mul, flatMap_wholeFrames count (Nat.le_refl length)]
    exact congrArg _ (List.append_nil _)

theorem log_calls_of_raise (h : run.Ready length) (hmode : run.scheduler.errorMode = .raise)
    {count i : Nat} {f : Failure}
    (hmakes : Makes (run.emulator.clocked length) (count * length) ⟨i, some f⟩) :
    (run.calls count).log.toList =
      (List.range (i + 1)).flatMap (run.scheduler.entriesAt (run.emulator.clocked length)) ++
        faultEntries { run.scheduler with frames := run.scheduler.frames + i / length }
          (some f) := by
  have hj : i % length < length := Nat.mod_lt i h.one_le
  have hi : i / length * length + i % length = i := Nat.div_add_mod' i length
  have hsucceed := hmakes.succeed_of_le (Nat.div_mul_le_self i length)
  obtain ⟨hfailure, hstate⟩ := calls_of_succeed h hsucceed
  have hcut := Emulator.makes_frame hj (hi.symm ▸ hmakes)
  have hlast := log_stepFrame (h.wholeFrames (i / length)) hcut
  have hcount : i + 1 = i / length * length + (i % length + 1) := by rw [← Nat.add_assoc, hi]
  rw [calls_eq_of_raise h hmode hmakes, calls, Outcome.andThen_of_success stepFrame hfailure,
    hstate, Array.toList_append, log_calls_of_succeed h hsucceed, hlast, hcount,
    flatMap_wholeFrames _ hj, List.append_assoc]
  rfl

end Run

end Scheduler

end Chip8
