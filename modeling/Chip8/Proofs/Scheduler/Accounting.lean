import Chip8.Proofs.Scheduler.Run

/-!
# The accounts of a scheduler

A scheduler counts the steps that succeeded and the frames that ticked the timers, and remembers a
failure.  Over every run these agree with what happened to the emulator (`accounts_after`):

- each frame keeps the rules of its error mode (`Lawful`, `lawful_of_entered`);
- the counts are the sums over the frames of the journal, and the emulator is what their steps and
  ticks make of it, with the events of the host in between;
- with mode `record` one failure is the last (`Leads.faults_le_one`), and nothing moves after it.
-/

namespace Chip8.Scheduler.Run

/-- The frames of a journal, each as the run that it began with. -/
def framesOf (journal : List Entry) : List Run := journal.filterMap Entry.frame?

/-- A number of each frame, summed up over the frames of a journal. -/
def total (number : Run → Nat) (journal : List Entry) : Nat :=
  (framesOf journal).foldr (fun before sum => number before + sum) 0

/-- Whether a step of the frame fails that begins with a run. -/
def faults (before : Run) : Bool := before.stretch.failure?.isSome

/-! ### The rules of one frame -/

/-- What a frame does, given the most steps that it may make and the error mode. -/
structure Lawful (length : Nat) (mode : ErrorMode) (before : Run) : Prop where
  /-- It was not skipped. -/
  goes : before.scheduler.isHalted = false
  /-- Its steps are the first `length`, or those up to and with the first that fails. -/
  makes : Emulator.Makes before.emulator.stepped length before.stretch
  attempts_le : before.stretch.attempts ≤ length
  /-- Its ticks, of which there is one at most, come after its steps, and that is all it does. -/
  emulator_eq :
    (stepFrame before).state.emulator =
      before.emulator.run
        (List.replicate before.stretch.attempts .step ++ List.replicate before.ticks .tick)
  whole (h : before.stretch.failure? = none) :
    before.stretch.succeeded = length ∧ before.ticks = 1 ∧ (stepFrame before).failure? = none
  raised (hmode : mode = .raise) {f : Failure} (h : before.stretch.failure? = some f) :
    before.ticks = 0 ∧ (stepFrame before).failure? = some f
  kept (hmode : mode ≠ .raise) {f : Failure} (h : before.stretch.failure? = some f) :
    before.ticks = 1 ∧ (stepFrame before).failure? = none
  remembered {f : Failure} (h : before.stretch.failure? = some f) :
    (stepFrame before).state.scheduler.lastFailure? = some f
  forgotten (hmode : mode = .ignore) (h : before.stretch.failure? = none) :
    (stepFrame before).state.scheduler.lastFailure? = none

theorem raised?_of_raise {run : Run} (h : run.scheduler.errorMode = .raise) :
    run.raised? = run.stretch.failure? := by
  rw [raised?]
  cases run.stretch.failure? with
  | none => rfl
  | some f => exact if_pos h

theorem raised?_of_ne {run : Run} (h : run.scheduler.errorMode ≠ .raise) : run.raised? = none := by
  rw [raised?]
  cases run.stretch.failure? with
  | none => rfl
  | some f => exact if_neg h

theorem ticks_of_raised {run : Run} {f : Failure} (h : run.raised? = some f) : run.ticks = 0 := by
  rw [ticks, h]
  rfl

theorem ticks_of_kept {run : Run} (h : run.raised? = none) : run.ticks = 1 := by
  rw [ticks, h]
  rfl

theorem lawful_of_entered {before : Run} (htrace : before.CanTrace)
    (hgoes : before.scheduler.isHalted = false) :
    Lawful before.scheduler.instructionsPerFrame before.scheduler.errorMode before := by
  obtain ⟨hfailure, hstate⟩ := stepFrame_eq htrace hgoes
  have hmakes := before.emulator.makes_stretch before.scheduler.instructionsPerFrame
  refine
    { goes := hgoes, makes := hmakes, attempts_le := hmakes.attempts_le, emulator_eq := ?emulator
      whole := ?whole, raised := ?raised, kept := ?kept, remembered := ?remembered
      forgotten := ?forgotten }
  case emulator => exact congrArg Run.emulator hstate
  case whole =>
    intro h
    have hkept : before.raised? = none := by rw [raised?, h]; rfl
    exact ⟨hmakes.succeeded_eq h, ticks_of_kept hkept, hfailure.trans hkept⟩
  case raised =>
    intro hmode f h
    have hraised : before.raised? = some f := (raised?_of_raise hmode).trans h
    exact ⟨ticks_of_raised hraised, hfailure.trans hraised⟩
  case kept =>
    intro hmode f h
    have hkept := raised?_of_ne hmode
    exact ⟨ticks_of_kept hkept, hfailure.trans hkept⟩
  case remembered =>
    intro f h
    rw [hstate]
    simp only [next, h, Option.some_or, ite_self]
  case forgotten =>
    intro hmode h
    rw [hstate]
    simp only [next, h, if_pos hmode]

/-! ### Books kept over a run -/

variable {first last : Run} {entries : List Entry}

theorem framesOf_frame (before : Run) (rest : List Entry) :
    framesOf (.frame before :: rest) = before :: framesOf rest := rfl

theorem total_frame (number : Run → Nat) (before : Run) (rest : List Entry) :
    total number (.frame before :: rest) = number before + total number rest := rfl

/-- No frame is entered but with the frame length and the error mode that the run began with. -/
theorem Leads.lawful (h : Leads first entries last) :
    ∀ before ∈ framesOf entries,
      Lawful first.scheduler.instructionsPerFrame first.scheduler.errorMode before := by
  induction h with
  | done run => exact fun before hbefore => absurd hbefore List.not_mem_nil
  | host event h ih => exact ih
  | @frame run last rest htrace hgoes h ih =>
    intro before hbefore
    rcases List.mem_cons.1 hbefore with rfl | hlater
    · exact lawful_of_entered htrace hgoes
    · exact ih before hlater

theorem Leads.executed_eq (h : Leads first entries last) :
    last.scheduler.executed =
      first.scheduler.executed + total (fun before => before.stretch.succeeded) entries := by
  induction h with
  | done run => rfl
  | host event h ih => exact ih
  | frame htrace hgoes h ih => rw [ih, total_frame, ← Nat.add_assoc, next]

theorem Leads.frames_eq (h : Leads first entries last) :
    last.scheduler.frames = first.scheduler.frames + total ticks entries := by
  induction h with
  | done run => rfl
  | host event h ih => exact ih
  | frame htrace hgoes h ih => rw [ih, total_frame, ← Nat.add_assoc, next]

theorem Leads.frames_eq_countP (h : Leads first entries last) :
    last.scheduler.frames =
      first.scheduler.frames +
        (framesOf entries).countP fun before => (stepFrame before).failure?.isNone := by
  induction h with
  | done run => rfl
  | host event h ih => exact ih
  | @frame run last rest htrace hgoes h ih =>
    -- a frame that raises nothing is one that ticks
    have hfailure := (stepFrame_eq htrace hgoes).1
    have hone : run.ticks = if (stepFrame run).failure?.isNone then 1 else 0 := by
      rw [ticks, hfailure]
      cases run.raised? <;> rfl
    rw [ih, framesOf_frame, List.countP_cons, ← hone, Nat.add_comm _ run.ticks, ← Nat.add_assoc]
    rfl

theorem Leads.emulator_eq (h : Leads first entries last) :
    last.emulator = first.emulator.run (entries.flatMap Entry.doings) := by
  induction h with
  | done run => rfl
  | host event h ih => exact ih
  | @frame run last rest htrace hgoes h ih =>
    rw [ih, List.flatMap_cons, Emulator.run_append]
    rfl

/-! ### Halting -/

theorem isHalted_next {run : Run} (hmode : run.scheduler.errorMode = .record)
    (hfaults : run.faults = true) : run.next.scheduler.isHalted = true := by
  obtain ⟨f, hf⟩ := Option.isSome_iff_exists.1 hfaults
  have hkept : run.next.scheduler.lastFailure? = some f := by
    simp only [next, hf, Option.some_or, ite_self]
  simp only [isHalted, hkept]
  exact decide_eq_true ⟨hmode, rfl⟩

/-- Once the scheduler is halted no frame is entered, and it stays as it is. -/
theorem Leads.of_halted (h : Leads first entries last)
    (hhalted : first.scheduler.isHalted = true) :
    framesOf entries = [] ∧ last.scheduler = first.scheduler := by
  induction h with
  | done run => exact ⟨rfl, rfl⟩
  | host event h ih => exact ih hhalted
  | frame htrace hgoes h ih => exact absurd hhalted (by rw [hgoes]; decide)

theorem Leads.faults_le_one (h : Leads first entries last)
    (hmode : first.scheduler.errorMode = .record) : (framesOf entries).countP faults ≤ 1 := by
  induction h with
  | done run => exact Nat.zero_le 1
  | host event h ih => exact ih hmode
  | @frame run last rest htrace hgoes h ih =>
    rw [framesOf_frame, List.countP_cons]
    cases hfaults : run.faults with
    | true =>
      -- the scheduler is halted from here on, so no other frame is entered
      rw [(h.of_halted (isHalted_next hmode hfaults)).1]
      exact Nat.le_refl 1
    | false => exact ih hmode

theorem Leads.halted_of_fault (h : Leads first entries last)
    (hmode : first.scheduler.errorMode = .record) {before : Run} (hbefore : before ∈ framesOf entries)
    (hfaults : before.faults = true) : last.scheduler.isHalted = true := by
  induction h with
  | done run => exact absurd hbefore List.not_mem_nil
  | host event h ih => exact ih hmode hbefore
  | @frame run last rest htrace hgoes h ih =>
    rcases List.mem_cons.1 hbefore with rfl | hlater
    · have hhalted := isHalted_next hmode hfaults
      rw [(h.of_halted hhalted).2]
      exact hhalted
    · exact ih hmode hlater

/-! ### The accounts -/

/-- The run after a journal that began with an emulator and a new scheduler. -/
structure Accounts (length : Nat) (mode : ErrorMode) (e : Emulator) (journal : List Entry)
    (run : Run) : Prop where
  /-- The steps that succeeded are counted. -/
  executed_eq : run.scheduler.executed = total (fun before => before.stretch.succeeded) journal
  /-- The ticks of frames are counted, -/
  frames_eq_ticks : run.scheduler.frames = total ticks journal
  /-- and these are the frames that raised nothing. -/
  frames_eq_returned :
    run.scheduler.frames =
      (framesOf journal).countP fun before => (stepFrame before).failure?.isNone
  /-- Nothing else happened to the emulator than what the journal says. -/
  emulator_eq : run.emulator = e.run (journal.flatMap Entry.doings)
  lawful : ∀ before ∈ framesOf journal, Lawful length mode before
  /-- A call for several frames raises what the last of them raises. -/
  raised_eq (count : Rat) :
    (runFrames count run).failure? =
      (run.entered count.ceil.toNat).getLast?.bind fun before => (stepFrame before).failure?
  faults_le_one (hmode : mode = .record) : (framesOf journal).countP faults ≤ 1
  /-- A recorded failure is the end: neither scheduler nor emulator changes any more. -/
  stays (hmode : mode = .record) {before : Run} (hbefore : before ∈ framesOf journal)
    (hfaults : before.faults = true) :
    stepFrame run = .ok run ∧ ∀ count, runFrames count run = .ok run

/-- The counts of a scheduler, over any run of frames and of what the host does in between. -/
theorem accounts_after (e : Emulator) (options : SchedulerOptions) {q : Rat}
    (hlength :
      (options.instructionsPerFrame?.getD e.config.instructionsPerFrame).toRat? = some q)
    (htrace : (Run.new e options).CanTrace) (events : List Event) :
    Accounts (max 1 q.floor.toNat) (options.errorMode?.getD e.config.errorMode) e
      ((Run.new e options).journal events) ((Run.new e options).after events) := by
  have hleads := leads_after events htrace
  have hnew : (Run.new e options).scheduler.instructionsPerFrame = max 1 q.floor.toNat := by
    simp only [Run.new, Scheduler.new, atLeast, Number.floor, Number.value, hlength,
      Option.getD_some]
  have hlawful := hleads.lawful
  rw [hnew] at hlawful
  refine
    { executed_eq := ?executed, frames_eq_ticks := ?frames, frames_eq_returned := ?returned
      emulator_eq := hleads.emulator_eq
      lawful := hlawful
      raised_eq := fun count => failure?_repeatFrames _ _ _
      faults_le_one := hleads.faults_le_one
      stays := ?stays }
  case executed => exact hleads.executed_eq.trans (Nat.zero_add _)
  case frames => exact hleads.frames_eq.trans (Nat.zero_add _)
  case returned => exact hleads.frames_eq_countP.trans (Nat.zero_add _)
  case stays =>
    intro hmode before hbefore hfaults
    have hhalted := hleads.halted_of_fault hmode hbefore hfaults
    exact ⟨stepFrame_of_halted hhalted, runFrames_of_halted hhalted⟩

/-- With two and a half instructions for each frame, and two frames asked for, the first one fails
at its second step and is the last. -/
theorem accounts_after_faulty :
    let options : SchedulerOptions :=
      { instructionsPerFrame? := some (.rat (5 / 2)), errorMode? := some .record
        traceEvery? := some (.ofInt 1) }
    let run := Run.new Emulator.faulty options
    let events : List Event := [.host .releaseKeys, .frames (3 / 2), .frame]
    Accounts 2 .record Emulator.faulty (run.journal events) (run.after events) ∧
      (framesOf (run.journal events)).map (fun before => before.stretch.attempts) = [2] ∧
      (run.after events).scheduler.executed = 1 ∧ (run.after events).scheduler.frames = 1 := by
  intro options run events
  have hlength : max 1 ((5 / 2 : Rat)).floor.toNat = 2 := by decide +kernel
  have haccounts := accounts_after Emulator.faulty options (q := 5 / 2) rfl
    (.inr Emulator.traceable_faulty) events
  rw [hlength] at haccounts
  exact ⟨haccounts, by decide +kernel⟩

end Chip8.Scheduler.Run
