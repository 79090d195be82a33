import Chip8.CommandLine.Trace
import Chip8.Proofs.Config
import Chip8.Proofs.Emulator.Restart
import Chip8.Proofs.Scheduler.Logging

/-!
# The trace command and the scheduler

The trace command counts all steps in one loop and ticks the timers at the multiples of the frame
length; the scheduler counts frame by frame.  Both make the steps of `Emulator.clocked`, up to the
first that fails: the command takes the course `courseOf` of their stretch (`run_eq`), and the frames
of a scheduler that raises failures are those of `calls_tracing`.  So they end alike, and the lines
of the one are what the other logs (`trace_agrees`).
-/

namespace Chip8.CommandLine.Trace

open Emulator (Succeed Makes)

variable {e : Emulator} {length : Nat}

/-! ### The course of a trace -/

/-- A count of steps is a whole number of frames where the length of a frame divides it. -/
theorem completesFrame_eq {config : Config} (hconfig : config.instructionsPerFrame = .ofInt length)
    (hpos : 1 ≤ length) (count : Nat) : completesFrame config count = decide (length ∣ count) := by
  have hne : length ≠ 0 := Nat.one_le_iff_ne_zero.1 hpos
  have hden := Rat.den_div_natCast_eq_one_iff count length hne
  rw [completesFrame, hconfig]
  simp only [Number.toRat?_ofInt, Rat.intCast_natCast, decide_eq_decide]
  rw [hden]
  exact and_iff_right (Nat.cast_ne_zero.2 hne)

theorem config_clocked (e : Emulator) (length i : Nat) : (e.clocked length i).config = e.config := by
  induction i with
  | zero => rfl
  | succ i ih =>
    have hstep : (e.clocked length i).step.state.config = e.config := ih
    rw [Emulator.clocked]
    split
    · exact hstep
    · exact hstep

/-- A course after steps that succeeded. -/
def courseAt (e : Emulator) (length i : Nat) : Course where
  emulator := e.clocked length i
  snapshots := ((List.range i).map fun k => (e.clocked length k).machine.snapshot).toArray
  log := ((List.range i).flatMap fun k => (e.clocked length k).step.log.toList).toArray

/-- A course that ended with a stretch of steps. -/
def courseOf (e : Emulator) (length : Nat) (s : Stretch) : Course :=
  match s.failure? with
  | none => courseAt e length s.succeeded
  | some f =>
    { courseAt e length s.attempts with
      emulator := (e.clocked length s.succeeded).step.state
      failure? := some f }

theorem push_snapshots (e : Emulator) (length i : Nat) :
    (courseAt e length i).snapshots.push (e.clocked length i).machine.snapshot =
      (courseAt e length (i + 1)).snapshots := by
  simp only [courseAt, List.push_toArray, List.range_succ, List.map_append, List.map_cons,
    List.map_nil]

theorem append_log (e : Emulator) (length i : Nat) :
    (courseAt e length i).log ++ (e.clocked length i).step.log =
      (courseAt e length (i + 1)).log := by
  simp only [courseAt, List.range_succ, List.flatMap_append, List.flatMap_singleton,
    ← List.append_toArray, Array.toArray_toList]

/-- One more step of a trace. -/
theorem run_succ (hconfig : e.config.instructionsPerFrame = .ofInt length) (hpos : 1 ≤ length)
    (left i : Nat) :
    run (left + 1) (courseAt e length i) =
      match (e.clocked length i).step.failure? with
      | some f =>
        { courseAt e length (i + 1) with
          emulator := (e.clocked length i).step.state
          failure? := some f }
      | none => run left (courseAt e length (i + 1)) := by
  have hsize : (courseAt e length (i + 1)).snapshots.size = i + 1 := by simp [courseAt]
  have hticks := completesFrame_eq ((config_clocked e length i).symm ▸ hconfig) hpos (i + 1)
  have hnext : (if completesFrame (e.clocked length i).config
        ((courseAt e length i).snapshots.push (e.clocked length i).machine.snapshot).size then
      (e.clocked length i).step.state.tickTimers else (e.clocked length i).step.state) =
      e.clocked length (i + 1) := by
    rw [push_snapshots, hsize, hticks, Emulator.clocked]
    simp only [decide_eq_true_eq]
  cases hfailure : (e.clocked length i).step.failure? with
  | some f =>
    dsimp only
    rw [← push_snapshots, ← append_log]
    simp only [run, courseAt, hfailure]
  | none =>
    have hcourse : courseAt e length (i + 1) =
        ⟨e.clocked length (i + 1), (courseAt e length (i + 1)).snapshots, none,
          (courseAt e length (i + 1)).log⟩ := rfl
    dsimp only
    rw [hcourse, ← hnext, ← push_snapshots, ← append_log]
    simp only [run, courseAt, hfailure]
    rfl

/-- Up to `left` more steps after the first `i` have succeeded. -/
theorem run_courseAt (hconfig : e.config.instructionsPerFrame = .ofInt length) (hpos : 1 ≤ length)
    {count i left : Nat} {s : Stretch} (h : Makes (e.clocked length) count s)
    (hi : i ≤ s.succeeded) (hleft : i + left = count) :
    run left (courseAt e length i) = courseOf e length s := by
  induction left generalizing i with
  | zero =>
    -- all steps have been made
    obtain _ | ⟨hlt, -, -⟩ := h
    · obtain rfl : i = count := hleft
      rfl
    · exact absurd hi (by simp only; omega)
  | succ left ih =>
    -- a step that fails is the end of the stretch, one that succeeds is within it
    rw [run_succ hconfig hpos]
    cases hfailure : (e.clocked length i).step.failure? with
    | some f =>
      obtain rfl := h.eq_of_fails hi (by omega) hfailure
      rfl
    | none => exact ih (h.lt_of_succeeds hi (by omega) hfailure) (by omega)

theorem run_eq (hconfig : e.config.instructionsPerFrame = .ofInt length) (hpos : 1 ≤ length)
    {count : Nat} {s : Stretch} (h : Makes (e.clocked length) count s) :
    run count { emulator := e } = courseOf e length s :=
  run_courseAt hconfig hpos h (Nat.zero_le _) (Nat.zero_add count)

/-! ### Lines -/

theorem snapshots_courseOf (e : Emulator) (length : Nat) (s : Stretch) :
    (courseOf e length s).snapshots.toList =
      (List.range s.attempts).map fun i => (e.clocked length i).machine.snapshot := by
  obtain ⟨succeeded, failure?⟩ := s
  cases failure? <;> rfl

theorem size_courseOf (e : Emulator) (length : Nat) (s : Stretch) :
    (courseOf e length s).snapshots.size = s.attempts := by
  rw [← Array.length_toList, snapshots_courseOf, List.length_map, List.length_range]

theorem failure?_courseOf (e : Emulator) (length : Nat) (s : Stretch) :
    (courseOf e length s).failure? = s.failure? := by
  obtain ⟨succeeded, failure?⟩ := s
  cases failure? <;> rfl

theorem lines_courseOf (e : Emulator) (length : Nat) (s : Stretch) :
    lines true (courseOf e length s).snapshots.toList =
      (List.range s.attempts).map fun i => (e.clocked length i).machine.snapshot.line := by
  rw [snapshots_courseOf, lines, if_pos rfl, List.map_map]
  rfl

theorem zipIdx_map_range {α : Type} (f : Nat → α) (count : Nat) :
    ((List.range count).map f).zipIdx = (List.range count).map fun i => (f i, i) := by
  apply List.ext_getElem <;> simp

theorem flatMap_ite {α β : Type} (p : α → Prop) [DecidablePred p] (f : α → β) (l : List α) :
    (l.flatMap fun a => if p a then [f a] else []) = (l.filter p).map f := by
  induction l with
  | nil => rfl
  | cons a l ih => by_cases h : p a <;> simp [h, ih]

theorem length_lines (asText : Bool) (snapshots : List Snapshot) :
    (lines asText snapshots).length = snapshots.length := by
  cases asText <;> simp [lines]

/-- There is a line for each step that is made. -/
theorem length_lines_run (hconfig : e.config.instructionsPerFrame = .ofInt length)
    (hpos : 1 ≤ length) {steps : Nat} {s : Stretch} (h : Makes (e.clocked length) steps s)
    (asText : Bool) :
    (lines asText (run steps { emulator := e }).snapshots.toList).length = s.attempts := by
  rw [run_eq hconfig hpos h, length_lines, Array.length_toList, size_courseOf]

/-! ### The scheduler beside the trace -/

/-- The options of a scheduler that raises failures and shows the machine at some distance. -/
def tracing (distance : Nat) (logger : Logger) : SchedulerOptions where
  errorMode? := some .raise
  traceEvery? := some (.ofInt distance)
  logger? := some logger

open Scheduler (Run)

/-- What a trace of an emulator and a scheduler that logs at some distance have in common. -/
structure SameRun (e : Emulator) (length distance : Nat) (logger : Logger) (course : Course)
    (o : Outcome Run) : Prop where
  emulator_eq : o.state.emulator = course.emulator
  failure?_eq : o.failure? = course.failure?
  /-- All lines but the one of a failing step are those of steps that succeeded. -/
  executed_eq :
    o.state.scheduler.executed + course.failure?.isSome.toNat = course.snapshots.size
  /-- All that is logged: a line where it is due, the notes of each step, the failure. -/
  log_eq :
    o.log.toList =
      ((lines true course.snapshots.toList).zipIdx.flatMap fun (line, i) =>
        (if i % distance = 0 then logger.info line else []) ++
          (e.clocked length i).step.log.toList) ++
        o.state.scheduler.faultEntries course.failure?
  /-- A logger that records what it is given has the lines of the trace in order. -/
  recorded {debug : Bool} (hlogger : logger = .recorder debug) :
    o.log.toList.filter (·.channel = .recorded .info) =
      ((lines true course.snapshots.toList).zipIdx.filter fun (_, i) => i % distance = 0).map
        fun (line, _) => ⟨.recorded .info, [.text line]⟩

section

variable {count distance : Nat} {logger : Logger}

theorem ready_tracing (he : e.machine.Traceable)
    (hconfig : e.config.instructionsPerFrame = .ofInt length) (hpos : 1 ≤ length) :
    (Run.new e (tracing distance logger)).Ready length := by
  have hlength :
      (Run.new e (tracing distance logger)).scheduler.instructionsPerFrame = length := by
    simp only [Run.new, Scheduler.new, tracing, Option.getD_none, hconfig, Scheduler.atLeast,
      Number.floor_ofInt, Int.toNat_natCast, Nat.max_eq_right hpos]
  have hready := Run.ready_new (tracing distance logger) (.inr he)
  rwa [hlength] at hready

theorem entriesAt_tracing (hdistance : 1 ≤ distance) (row : Nat → Emulator) (i : Nat) :
    (Run.new e (tracing distance logger)).scheduler.entriesAt row i =
      (if i % distance = 0 then logger.info (row i).machine.snapshot.line else []) ++
        (row i).step.log.toList := by
  simp only [Scheduler.entriesAt, Scheduler.dueEntries, Scheduler.traceDue, Run.new, Scheduler.new,
    tracing, Option.getD_some, Scheduler.atLeast, Number.floor_ofInt, Int.toNat_natCast,
    Nat.zero_max, Nat.zero_add, Array.toList_append]
  have hdue : decide (0 < distance ∧ i % distance = 0) = decide (i % distance = 0) := by
    have hpositive : 0 < distance := hdistance
    simp only [hpositive, true_and]
  rw [hdue]
  simp only [decide_eq_true_eq]
  split <;> rfl

/-- Of the entries of a step, a recording logger has the line at level info, if it is due. -/
theorem filter_entriesAt {debug : Bool} (hdistance : 1 ≤ distance) (row : Nat → Emulator)
    (i : Nat) :
    ((Run.new e (tracing distance (.recorder debug))).scheduler.entriesAt row i).filter
        (·.channel = .recorded .info) =
      if i % distance = 0 then [⟨.recorded .info, [.text (row i).machine.snapshot.line]⟩]
      else [] := by
  have hnotes : (row i).step.log.toList.filter (·.channel = .recorded .info) = [] := by
    refine List.filter_eq_nil_iff.2 fun entry hentry => ?_
    have hne := Emulator.channel_ne_of_step (Array.mem_toList_iff.1 hentry)
    exact fun heq => hne (of_decide_eq_true heq)
  rw [entriesAt_tracing hdistance, List.filter_append, hnotes, List.append_nil]
  split <;> rfl

/-- The frames of a scheduler that raises, told by the stretch of the steps. -/
theorem calls_tracing (distance : Nat) (logger : Logger) (he : e.machine.Traceable)
    (hconfig : e.config.instructionsPerFrame = .ofInt length) (hpos : 1 ≤ length) {s : Stretch}
    (h : Makes (e.clocked length) (count * length) s) :
    let start := Run.new e (tracing distance logger)
    (start.calls count).state.emulator = (courseOf e length s).emulator ∧
      (start.calls count).failure? = s.failure? ∧
      (start.calls count).state.scheduler.executed = s.succeeded ∧
      (start.calls count).log.toList =
        (List.range s.attempts).flatMap (start.scheduler.entriesAt (e.clocked length)) ++
          (start.calls count).state.scheduler.faultEntries s.failure? := by
  intro start
  have hready : start.Ready length := ready_tracing he hconfig hpos
  cases h with
  | all hsucceed =>
    obtain ⟨hfailure, hstate⟩ := Run.calls_of_succeed hready hsucceed
    have hlog := Run.log_calls_of_succeed hready hsucceed
    rw [hstate]
    exact ⟨rfl, hfailure, Nat.zero_add _, hlog.trans (List.append_nil _).symm⟩
  | cutShort hlt hsucceed hfails =>
    have hmakes := Makes.cutShort hlt hsucceed hfails
    obtain ⟨hfailure, hstate⟩ := Run.calls_of_raise hready rfl hmakes
    have hlog := Run.log_calls_of_raise hready rfl hmakes
    rw [hstate]
    exact ⟨rfl, hfailure, Nat.zero_add _, hlog⟩

theorem sameRun (he : e.machine.Traceable)
    (hconfig : e.config.instructionsPerFrame = .ofInt length) (hpos : 1 ≤ length) (count : Nat)
    (hdistance : 1 ≤ distance) (logger : Logger) :
    SameRun e length distance logger (run (count * length) { emulator := e })
      ((Run.new e (tracing distance logger)).calls count) := by
  obtain ⟨s, hs⟩ := Emulator.exists_makes (e.clocked length) (count * length)
  obtain ⟨hemulator, hfailure, hexecuted, hlog⟩ :=
    calls_tracing distance logger he hconfig hpos hs
  rw [run_eq hconfig hpos hs]
  refine
    { emulator_eq := hemulator, failure?_eq := ?failure, executed_eq := ?executed, log_eq := ?log
      recorded := ?recorded }
  case failure => rw [hfailure, failure?_courseOf]
  case executed => rw [hexecuted, failure?_courseOf, size_courseOf, Stretch.attempts]
  case log =>
    rw [hlog, failure?_courseOf, lines_courseOf, zipIdx_map_range, List.flatMap_map,
      funext (entriesAt_tracing hdistance (e.clocked length))]
  case recorded =>
    rintro debug rfl
    have hfault : List.filter (·.channel = .recorded .info)
        (((Run.new e (tracing distance (.recorder debug))).calls
          count).state.scheduler.faultEntries s.failure?) = [] := by
      refine List.filter_eq_nil_iff.2 fun entry hentry => ?_
      exact fun heq => Scheduler.channel_ne_of_fault hentry (of_decide_eq_true heq)
    rw [hlog, lines_courseOf, zipIdx_map_range, List.filter_append, hfault, List.append_nil,
      List.filter_flatMap, funext (filter_entriesAt hdistance (e.clocked length)), flatMap_ite,
      List.filter_map, List.map_map]
    rfl

end

/-! ### The command -/

/-- The settings of the command have a whole number of steps for each frame. -/
theorem instructionsPerFrame_config (env : Environment) (flags : Flags) :
    ∃ length : Nat, 1 ≤ length ∧ (config env flags).instructionsPerFrame = .ofInt length := by
  obtain ⟨n, hn, hconfig⟩ := (Config.sane_load env).instructionsPerFrame
  obtain ⟨length, rfl⟩ := Int.eq_ofNat_of_zero_le (Int.le_trans Int.one_nonneg hn)
  exact ⟨length, Int.ofNat_le.1 hn, hconfig⟩

theorem load_create (settings : Config) (random : RandomSource) (notes : Logger)
    {rom : List UInt8} (hrom : rom.length ≤ 3584) :
    ((Emulator.create settings random notes).load rom).failure? = none ∧
      ((Emulator.create settings random notes).load rom).state.config = settings := by
  have hnew : (Emulator.create settings random notes).Holds none :=
    Emulator.holds_ofMachine (Machine.bounded_powerOn random) settings notes
  obtain ⟨hsuccess, hstate⟩ := Emulator.load_of_le hnew.bounded hrom
  refine ⟨hsuccess, ?_⟩
  rw [hstate]
  rfl

/-- With a program that is not too long, the command writes the trace of as many steps as there are
whole numbers below the limit. -/
theorem session_eq {args : List String} {path : String}
    (hpath : (Flags.ofArguments args).nonempty? "rom" = some path)
    {file : Except SystemError (List UInt8)} {rom : List UInt8} (hfile : Rom.ofFile file = .ok rom)
    (hrom : rom.length ≤ 3584) (env : Environment) (unseeded : RandomSource) :
    let flags := Flags.ofArguments args
    let settings := config env flags
    let loaded := (Emulator.create settings (Emulator.randomSource settings unseeded)
      (Emulator.machineLogger settings.debug)).load rom
    let course := run (flags.positive "maxSteps" 1000).ceil.toNat { emulator := loaded.state }
    ∃ next, session args env unseeded = .readFile path next ∧
      next file =
        .printLog loaded.log.toList (.printLog course.log.toList (emit env flags course)) := by
  intro flags settings loaded course
  have hloaded : loaded.failure? = none := (load_create _ _ _ hrom).1
  rw [session]
  simp only [hpath]
  refine ⟨_, rfl, ?_⟩
  simp only [hfile]
  rw [hloaded]

/-- The trace command and a scheduler that raises failures, on emulators that have started one
program, make the same frames and show the same lines.  For any limit on the steps, the command shows
a line for each step up to and with the first that fails. -/
theorem trace_agrees {settings : Config} {length : Nat}
    (hconfig : settings.instructionsPerFrame = .ofInt length) (hpos : 1 ≤ length)
    (random : RandomSource) (notes : Logger) {rom : List UInt8} (hrom : rom.length ≤ 3584) :
    let loaded := (Emulator.create settings random notes).load rom
    let e := loaded.state
    let trace (steps : Nat) := run steps { emulator := e }
    loaded.failure? = none ∧
      (∀ (count distance : Nat) (logger : Logger), 1 ≤ distance →
        SameRun e length distance logger (trace (count * length))
          ((Run.new e (tracing distance logger)).calls count)) ∧
      (∀ (limit : Rat) (asText : Bool),
        let shown := (lines asText (trace limit.ceil.toNat).snapshots.toList).length
        (Succeed (e.clocked length) limit.ceil.toNat → shown = limit.ceil.toNat) ∧
          ∀ first : Nat, Succeed (e.clocked length) first →
            (e.clocked length first).step.failure?.isSome →
            shown = min limit.ceil.toNat (first + 1)) ∧
      ∀ (args : List String) (env : Environment) (unseeded : RandomSource) (path : String)
        (file : Except SystemError (List UInt8)),
        let flags := Flags.ofArguments args
        config env flags = settings → Emulator.randomSource settings unseeded = random →
          Emulator.machineLogger settings.debug = notes →
          flags.nonempty? "rom" = some path → Rom.ofFile file = .ok rom →
          let course := trace (flags.positive "maxSteps" 1000).ceil.toNat
          ∃ next, session args env unseeded = .readFile path next ∧
            next file =
              .printLog loaded.log.toList
                (.printLog course.log.toList (emit env flags course)) := by
  intro loaded e trace
  have htraceable : e.machine.Traceable :=
    Emulator.traceable_perform (Emulator.traceable_create settings random notes) (.load rom)
  obtain ⟨hsuccess, hkept⟩ := load_create settings random notes hrom
  have hsettings : e.config.instructionsPerFrame = .ofInt length := hkept ▸ hconfig
  refine ⟨hsuccess, ?_, ?_, ?_⟩
  · intro count distance logger hdistance
    exact sameRun htraceable hsettings hpos count hdistance logger
  · intro limit asText shown
    refine ⟨fun hall => length_lines_run hsettings hpos (.all hall) asText, ?_⟩
    intro first hbefore hfails
    obtain ⟨f, hf⟩ := Option.isSome_iff_exists.1 hfails
    rcases Nat.lt_or_ge first limit.ceil.toNat with hlt | hge
    · rw [Nat.min_eq_right hlt]
      exact length_lines_run hsettings hpos (.cutShort hlt hbefore hf) asText
    · rw [Nat.min_eq_left (Nat.le_succ_of_le hge)]
      exact length_lines_run hsettings hpos (.all (hbefore.of_le hge)) asText
  · rintro args env unseeded path file flags rfl rfl rfl hpath hfile
    exact session_eq hpath hfile hrom env unseeded

/-- The second step of three fails, and the trace has two lines. -/
theorem trace_agrees_faulty :
    let loaded := (Emulator.create .standard (.replay #[] 0) (.recorder true)).load
      [0x60, 0x01, 0x00, 0x00]
    let e := loaded.state
    (lines true (run (5 / 2 : Rat).ceil.toNat { emulator := e }).snapshots.toList).length = 2 ∧
      SameRun e 10 2 (.recorder false) (run (3 * 10) { emulator := e })
        ((Run.new e (tracing 2 (.recorder false))).calls 3) := by
  intro loaded e
  have hlength : Config.standard.instructionsPerFrame = .ofInt (10 : Nat) := rfl
  have hrom : [0x60, 0x01, 0x00, (0x00 : UInt8)].length ≤ 3584 := by decide
  obtain ⟨-, hsame, hshown, -⟩ :=
    trace_agrees hlength (by decide) (.replay #[] 0) (.recorder true) hrom
  have hsteps : (e.clocked 10 0).step.failure? = none ∧
      (e.clocked 10 1).step.failure?.isSome := by decide +kernel
  have hfirst : Succeed (e.clocked 10) 1 := by
    intro i hi
    obtain rfl := Nat.lt_one_iff.1 hi
    exact hsteps.1
  have hlines := (hshown (5 / 2) true).2 1 hfirst hsteps.2
  exact ⟨hlines.trans (by decide +kernel), hsame 3 2 (.recorder false) (by decide)⟩

end Chip8.CommandLine.Trace
