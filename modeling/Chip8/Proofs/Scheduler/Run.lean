import Chip8.Proofs.Scheduler.Frame

/-!
# Runs of frames

A host asks for frames, one or many at a time, and acts on the emulator in between
(`Scheduler.Event`).  The `journal` of what it did lists the frames that were entered, each with
the run it began with.  The journal leads from the first run to the last (`Leads`, `leads_after`),
so whatever every entry of a journal keeps is shown by an induction on it.
-/

namespace Chip8

/-- What a host may do to a scheduler and its emulator. -/
inductive Scheduler.Event where
  | frame
  | frames (count : Rat)
  | host (event : Emulator.Event)

namespace Scheduler.Run

/-- A run after an event, and how the event ended. -/
def perform (run : Run) : Event → Outcome Run
  | .frame => stepFrame run
  | .frames count => runFrames count run
  | .host event => (run.emulator.perform event).map fun emulator => { run with emulator }

/-- A run after events; the host goes on after those that fail. -/
def after (events : List Event) (run : Run) : Run :=
  events.foldl (fun run event => (run.perform event).state) run

/-! ### Journals -/

/-- What happened to the emulator of a run. -/
inductive Entry where
  | host (event : Emulator.Event)
  /-- A frame was entered that began with this run. -/
  | frame (before : Run)

/-- The run that an entered frame began with. -/
def Entry.frame? : Entry → Option Run
  | .host _ => none
  | .frame before => some before

/-- What was done to the emulator. -/
def Entry.doings : Entry → List Emulator.Event
  | .host event => [event]
  | .frame before => before.doings

/-- The frames that up to `count` of them enter: one that is skipped is not entered, and after one
that raises a failure there are no more. -/
def entered : (count : Nat) → Run → List Run
  | 0, _ => []
  | count + 1, run =>
    if run.scheduler.isHalted then []
    else
      let o := stepFrame run
      run :: match o.failure? with
        | some _ => []
        | none => entered count o.state

/-- What an event makes happen. -/
def entries (run : Run) : Event → List Entry
  | .frame => (run.entered 1).map .frame
  | .frames count => (run.entered count.ceil.toNat).map .frame
  | .host event => [.host event]

/-- What events make happen, one after the other. -/
def journal : List Event → Run → List Entry
  | [], _ => []
  | event :: rest, run => run.entries event ++ (run.perform event).state.journal rest

/-! ### From the first run to the last -/

/-- The entries of a journal lead from a first run to a last one. -/
inductive Leads : Run → List Entry → Run → Prop
  | done (run : Run) : Leads run [] run
  | host {run last : Run} {rest : List Entry} (event : Emulator.Event)
      (h : Leads ⟨run.scheduler, (run.emulator.perform event).state⟩ rest last) :
      Leads run (.host event :: rest) last
  | frame {run last : Run} {rest : List Entry} (htrace : run.CanTrace)
      (hgoes : run.scheduler.isHalted = false) (h : Leads run.next rest last) :
      Leads run (.frame run :: rest) last

theorem Leads.append {first middle last : Run} {entries rest : List Entry}
    (h : Leads first entries middle) (hrest : Leads middle rest last) :
    Leads first (entries ++ rest) last := by
  induction h with
  | done run => exact hrest
  | host event h ih => exact .host event (ih hrest)
  | frame htrace hgoes h ih => exact .frame htrace hgoes (ih hrest)

theorem canTrace_host {run : Run} (h : run.CanTrace) (event : Emulator.Event) :
    CanTrace ⟨run.scheduler, (run.emulator.perform event).state⟩ := by
  rcases h with hnever | hmachine
  · exact .inl hnever
  · exact .inr (Emulator.traceable_perform hmachine event)

theorem Leads.canTrace {first last : Run} {entries : List Entry} (h : Leads first entries last)
    (htrace : first.CanTrace) : last.CanTrace := by
  induction h with
  | done run => exact htrace
  | host event h ih => exact ih (canTrace_host htrace event)
  | frame _ hgoes h ih => exact ih (canTrace_next htrace)

theorem Leads.traceable {first last : Run} {entries : List Entry} (h : Leads first entries last)
    (hm : first.emulator.machine.Traceable) : last.emulator.machine.Traceable := by
  induction h with
  | done run => exact hm
  | host event h ih => exact ih (Emulator.traceable_perform hm event)
  | frame _ hgoes h ih => exact ih (Emulator.traceable_run _ hm)

theorem leads_repeatFrames (count : Nat) (log : Array Log.Entry) {run : Run}
    (htrace : run.CanTrace) :
    Leads run ((run.entered count).map .frame) (repeatFrames count log run).state := by
  induction count generalizing run log with
  | zero => exact .done run
  | succ count ih =>
    rw [entered, repeatFrames]
    cases hgoes : run.scheduler.isHalted with
    | true => exact .done run
    | false =>
      have hstate := (stepFrame_eq htrace hgoes).2
      simp only [Bool.false_eq_true, if_false, hstate, List.map_cons]
      refine .frame htrace hgoes ?_
      cases (stepFrame run).failure? with
      | some f => exact .done run.next
      | none => exact ih _ (canTrace_next htrace)

theorem leads_stepFrame {run : Run} (htrace : run.CanTrace) :
    Leads run ((run.entered 1).map .frame) (stepFrame run).state := by
  rw [entered]
  cases hgoes : run.scheduler.isHalted with
  | true =>
    rw [stepFrame_of_halted hgoes]
    exact .done run
  | false =>
    have hstate := (stepFrame_eq htrace hgoes).2
    simp only [Bool.false_eq_true, if_false, hstate, List.map_cons]
    refine .frame htrace hgoes ?_
    -- a second frame is not asked for
    cases (stepFrame run).failure? <;> exact .done run.next

theorem leads_perform {run : Run} (htrace : run.CanTrace) (event : Event) :
    Leads run (run.entries event) (run.perform event).state := by
  cases event with
  | frame => exact leads_stepFrame htrace
  | frames count => exact leads_repeatFrames count.ceil.toNat #[] htrace
  | host event => exact .host event (.done _)

/-- The journal of events leads from the run before them to the run after them. -/
theorem leads_after (events : List Event) {run : Run} (htrace : run.CanTrace) :
    Leads run (run.journal events) (run.after events) := by
  induction events generalizing run with
  | nil => exact .done run
  | cons event rest ih =>
    have hfirst := leads_perform htrace event
    exact hfirst.append (ih (hfirst.canTrace htrace))

/-- What several frames raise is what the last of them raises that is entered. -/
theorem failure?_repeatFrames (count : Nat) (log : Array Log.Entry) (run : Run) :
    (repeatFrames count log run).failure? =
      (run.entered count).getLast?.bind fun before => (stepFrame before).failure? := by
  induction count generalizing run log with
  | zero => rfl
  | succ count ih =>
    rw [entered, repeatFrames]
    cases run.scheduler.isHalted with
    | true => rfl
    | false =>
      simp only [Bool.false_eq_true, if_false]
      cases hfailure : (stepFrame run).failure? with
      | some f => exact hfailure.symm
      | none =>
        simp only [ih, List.getLast?_cons]
        -- with no frame after it, this one is the last, and raises nothing
        cases (entered count (stepFrame run).state).getLast? with
        | none => exact hfailure.symm
        | some before => rfl

/-! ### Calls in a row -/

/-- One frame after the other, up to the first that raises a failure. -/
def calls : (count : Nat) → Run → Outcome Run
  | 0, run => .ok run
  | count + 1, run => (run.calls count).andThen stepFrame

/-- Calls that came to a standstill stay there. -/
theorem calls_of_le {run : Run} {count more : Nat}
    (h : (run.calls count).andThen stepFrame = run.calls count) (hle : count ≤ more) :
    run.calls more = run.calls count := by
  induction hle with
  | refl => rfl
  | step hle ih => rw [calls, ih, h]

/-! ### Runs that are halted -/

theorem runFrames_of_halted {run : Run} (h : run.scheduler.isHalted = true) (count : Rat) :
    runFrames count run = .ok run := by
  rw [runFrames]
  cases count.ceil.toNat with
  | zero => rfl
  | succ count =>
    rw [repeatFrames, h]
    rfl

end Scheduler.Run

end Chip8
