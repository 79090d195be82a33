import Chip8.Proofs.Machine.Run

/-!
# Waiting for a key

The instruction that waits for a key has no state of its own.  While no key is held it takes the
program counter back to itself, so that the step changes nothing at all, also where the program
counter wraps around (`AwaitsKey.step_of_released`).  Once a key is held it stores the lowest one
and goes on (`AwaitsKey.step_of_held`).

Between steps a host may tick and set keys in any order.  This reaches nothing but the timers and
the keypad (`Stays`), so the machine still waits afterwards, and a key that is released again
before the next step leaves no trace (`run_eq_of_keypad_eq`).  The headline is `run_waitKey`.
-/

namespace Chip8.Machine

/-! ### Events between steps -/

/-- The second machine is the first with other timers and keys. -/
def Stays (m m' : Machine) : Prop := ∃ dt st keypad, m' = { m with dt, st, keypad }

theorem Stays.refl (m : Machine) : m.Stays m := ⟨m.dt, m.st, m.keypad, rfl⟩

theorem Stays.trans {m m' m'' : Machine} (h : m.Stays m') (h' : m'.Stays m'') : m.Stays m'' := by
  obtain ⟨_, _, _, rfl⟩ := h
  obtain ⟨dt, st, keypad, rfl⟩ := h'
  exact ⟨dt, st, keypad, rfl⟩

theorem stays_perform (logger : Logger) (m : Machine) {event : Event}
    (h : event.isTick = true ∨ event.setsKeys = true) :
    m.Stays (m.perform logger event).state := by
  rcases h with htick | hkeys
  · cases event with
    | tick => exact ⟨_, _, m.keypad, rfl⟩
    | step | setKey | keyEvent | load | reset => cases htick
  · obtain ⟨keypad, hstate⟩ := perform_of_setsKeys logger m event hkeys
    exact ⟨m.dt, m.st, keypad, hstate⟩

/-- Ticks do not look at the keypad. -/
theorem run_ticks_withKeypad (logger : Logger) (m : Machine) (keypad : Keypad)
    {ticks : List Event} (h : ∀ event ∈ ticks, event.isTick = true) :
    run logger ticks { m with keypad } = { m.run logger ticks with keypad } := by
  induction ticks generalizing m with
  | nil => rfl
  | cons event rest ih =>
    rw [List.forall_mem_cons] at h
    cases event with
    | tick => exact ih m.tickTimers h.2
    | step | setKey | keyEvent | load | reset => cases h.1

/-- Events between steps leave the machine as the ticks among them do, and with their keypad. -/
theorem run_eq_ticks (logger : Logger) (m : Machine) {between : List Event}
    (h : ∀ event ∈ between, event.isTick = true ∨ event.setsKeys = true) :
    m.run logger between = { m.run logger (between.filter Event.isTick) with
      keypad := (m.run logger between).keypad } := by
  induction between generalizing m with
  | nil => rfl
  | cons event rest ih =>
    rw [List.forall_mem_cons] at h
    have hrest := ih (m.perform logger event).state h.2
    cases htick : event.isTick with
    | true =>
      rw [List.filter_cons_of_pos htick]
      exact hrest
    | false =>
      have hkeys : event.setsKeys = true := h.1.resolve_left (by simp [htick])
      obtain ⟨keypad, hstate⟩ := perform_of_setsKeys logger m event hkeys
      have hrun : m.run logger (event :: rest) = run logger rest { m with keypad } :=
        congrArg (run logger rest) hstate
      have hticks : ∀ e ∈ rest.filter Event.isTick, e.isTick = true :=
        fun e he => (List.mem_filter.1 he).2
      rw [hstate, run_ticks_withKeypad logger m keypad hticks] at hrest
      rw [List.filter_cons_of_neg (by simp [htick]), hrun]
      exact hrest

/-! ### The instruction -/

/-- The word at the program counter waits for a key, for register `x`.  Sizes below `2 ^ 53` are
those that binary64 numbers count exactly. -/
structure AwaitsKey (m : Machine) (size : Nat) (x : Fin 16) : Prop where
  wellFormed : m.WellFormed size
  size_lt : size < 0x20000000000000
  inside : m.address + 2 ≤ size
  word_eq : m.memory.wordAt m.address = 0xF00A + 0x100 * x.val

namespace AwaitsKey

variable {m m' : Machine} {size : Nat} {x : Fin 16} (h : m.AwaitsKey size x)

include h

/-- Neither the timers nor the keys count. -/
theorem of_stays (hstays : m.Stays m') : m'.AwaitsKey size x := by
  obtain ⟨dt, st, keypad, rfl⟩ := hstays
  exact ⟨h.wellFormed.of_eq rfl rfl rfl rfl, h.size_lt, h.inside, h.word_eq⟩

theorem advance_eq : m.advance = { m with pc := .ofInt ((m.address + 2) % 0x10000) } := by
  have hlt := h.wellFormed.address_lt
  rw [advance, h.wellFormed.pc_eq, addressSum_ofInt (by omega)]

/-- Going back by one word undoes going on by one, modulo `2 ^ 16`. -/
theorem addressSum_advance : addressSum m.advance.pc (-2) = m.pc := by
  have hlt := h.wellFormed.address_lt
  rw [h.advance_eq]
  exact (addressSum_eq (by omega) (by omega)).trans h.wellFormed.pc_eq.symm

theorem step_eq :
    m.step = (m.advance.execute (.waitKey (.ofInt x.val))).withContext m.circumstances := by
  have hmatches : (Instruction.waitKey x.val).Matches m.view.word := by
    show _ ∧ _ = ((m.memory.wordAt m.address : Nat) : Int)
    rw [h.word_eq]
    simp only [Instruction.map, Instruction.InRange, Instruction.encode, Instruction.packByte]
    omega
  exact step_of_matches h.wellFormed h.size_lt h.inside hmatches

/-- While no key is held, a step changes nothing. -/
theorem step_of_released (hkeys : ∀ key, m.keypad.isHeld key = false) : m.step = .ok m := by
  have hfirst : m.advance.keypad.firstPressed? = none :=
    (m.keypad.firstPressed?_eq_none_iff).2 hkeys
  rw [h.step_eq, execute, hfirst]
  simp only [h.addressSum_advance]
  rfl

/-- A step at which keys are held stores the lowest one and goes on. -/
theorem step_of_held {key : Fin 16} (hkey : m.keypad.isHeld key = true)
    (hlowest : ∀ j < key, m.keypad.isHeld j = false) :
    m.step = .ok { m with
      v := m.v.set x (UInt8.ofNat key) x.isLt, pc := .ofInt ((m.address + 2) % 0x10000) } := by
  have hfirst : m.advance.keypad.firstPressed? = some key :=
    (m.keypad.firstPressed?_eq_some_iff key).2 ⟨hkey, hlowest⟩
  rw [h.step_eq, execute, hfirst, h.advance_eq]
  simp only [register_ofInt]
  rfl

end AwaitsKey

/-! ### Runs -/

/-- The events are steps, ticks and changes of keys, and no key is held at any of the steps. -/
structure Idle (m : Machine) (logger : Logger) (events : List Event) : Prop where
  kinds : ∀ event ∈ events, event.isStep = true ∨ event.isTick = true ∨ event.setsKeys = true
  released : ∀ n, events[n]? = some .step →
    ∀ key, (m.run logger (events.take n)).keypad.isHeld key = false

/-- As long as no key is held at a step, only timers and keys change. -/
theorem AwaitsKey.stays_run {m : Machine} {size : Nat} {x : Fin 16} (h : m.AwaitsKey size x)
    {logger : Logger} {events : List Event} (hidle : m.Idle logger events) (n : Nat) :
    m.Stays (m.run logger (events.take n)) := by
  induction n with
  | zero => exact .refl m
  | succ n ih =>
    rw [List.take_add_one, run_append]
    cases hevent : events[n]? with
    | none => exact ih
    | some event =>
      refine ih.trans ?_
      show Stays _ (perform logger _ event).state
      rcases hidle.kinds event (List.mem_of_getElem? hevent) with hstep | hother
      · cases event with
        | step =>
          rw [perform, state_loggedStep, (h.of_stays ih).step_of_released (hidle.released n hevent)]
          exact .refl _
        | tick | setKey | keyEvent | load | reset => cases hstep
      · exact stays_perform logger _ hother

/-- Keys that are as before after some events between two steps might as well not have been
touched. -/
theorem run_eq_of_keypad_eq (logger : Logger) (m : Machine) {before between after : List Event}
    (hbetween : ∀ event ∈ between, event.isTick = true ∨ event.setsKeys = true)
    (hkeypad : (m.run logger (before ++ between)).keypad = (m.run logger before).keypad) :
    m.run logger (before ++ between ++ after) =
      m.run logger (before ++ between.filter Event.isTick ++ after) := by
  have hticks : ∀ event ∈ between.filter Event.isTick, event.isTick = true :=
    fun event hevent => (List.mem_filter.1 hevent).2
  have hsame :=
    run_ticks_withKeypad logger (m.run logger before) (m.run logger before).keypad hticks
  have hrun := run_eq_ticks logger (m.run logger before) hbetween
  rw [← run_append, hkeypad, ← hsame] at hrun
  rw [run_append, hrun, run_append, run_append]

/-- What becomes of a machine that awaits a key for register `x` while events happen. -/
structure WaitsThrough (m : Machine) (logger : Logger) (x : Fin 16) (events : List Event) :
    Prop where
  /-- Nothing but timers and keys ever changes. -/
  stays : ∀ n, m.Stays (m.run logger (events.take n))
  /-- Steps succeed, and change nothing at all. -/
  steps : ∀ n, events[n]? = some .step →
    ((m.run logger (events.take n)).perform logger .step).failure? = none ∧
      ((m.run logger (events.take n)).perform logger .step).state = m.run logger (events.take n)
  /-- Keys that are as before after some events between two steps have no effect. -/
  taps : ∀ before between after, before ++ between ++ after = events →
    (∀ event ∈ between, event.isTick = true ∨ event.setsKeys = true) →
      (m.run logger (before ++ between)).keypad = (m.run logger before).keypad →
        m.run logger events = m.run logger (before ++ between.filter Event.isTick ++ after)
  /-- A step that finds keys held stores the lowest one and goes on. -/
  ends : (∃ key, (m.run logger events).keypad.isHeld key = true) →
    ∃ key, (m.run logger events).keypad.isHeld key = true ∧
      (∀ j < key, (m.run logger events).keypad.isHeld j = false) ∧
      ((m.run logger events).perform logger .step).failure? = none ∧
      ((m.run logger events).perform logger .step).state =
        { m.run logger events with
          v := m.v.set x (UInt8.ofNat key) x.isLt, pc := .ofInt ((m.address + 2) % 0x10000) }

/-- A machine at an instruction that waits for a key waits through all events at whose steps no
key is held.  The first step at which one is held stores the lowest key and ends the wait. -/
theorem run_waitKey {m : Machine} {size : Nat} {x : Fin 16} (h : m.AwaitsKey size x)
    {logger : Logger} {events : List Event} (hidle : m.Idle logger events) :
    m.WaitsThrough logger x events := by
  have hstays := h.stays_run hidle
  constructor
  case stays => exact hstays
  case steps =>
    intro n hevent
    have hstep := (h.of_stays (hstays n)).step_of_released (hidle.released n hevent)
    rw [perform, state_loggedStep, failure?_loggedStep, hstep]
    exact ⟨rfl, rfl⟩
  case taps =>
    rintro before between after rfl hbetween hkeypad
    exact run_eq_of_keypad_eq logger m hbetween hkeypad
  case ends =>
    rintro ⟨held, hheld⟩
    have hlast := hstays events.length
    rw [List.take_length] at hlast
    have hsome : (m.run logger events).keypad.firstPressed? ≠ none := by
      intro hnone
      rw [(Keypad.firstPressed?_eq_none_iff _).1 hnone held] at hheld
      cases hheld
    obtain ⟨key, hfirst⟩ := Option.ne_none_iff_exists'.1 hsome
    obtain ⟨hkey, hlowest⟩ := (Keypad.firstPressed?_eq_some_iff _ _).1 hfirst
    refine ⟨key, hkey, hlowest, ?_⟩
    rw [perform, state_loggedStep, failure?_loggedStep,
      (h.of_stays hlast).step_of_held hkey hlowest]
    -- registers and program counter are still those of the start
    obtain ⟨dt, st, keypad, hrun⟩ := hlast
    rw [hrun]
    exact ⟨rfl, rfl⟩

/-- Key 5 is up again before the first step, and of the keys 7 and 4 the lower one is stored. -/
theorem run_waitKey_tapped :
    let m := programmed (.replay #[0xAB] 0) [0xF3, 0x0A]
    let events : List Event := [.setKey (.ofInt 5) true, .tick, .setKey (.ofInt 5) false, .step,
      .tick, .step, .setKey (.ofInt 7) true, .setKey (.ofInt 4) true]
    m.AwaitsKey Memory.standardSize 3 ∧ m.Idle (.recorder true) events ∧
      ((m.run (.recorder true) events).perform (.recorder true) .step).state =
        { m.run (.recorder true) events with v := m.v.set 3 4 (by decide), pc := .ofInt 0x202 } := by
  intro m events
  have hawaits : m.AwaitsKey Memory.standardSize 3 :=
    ⟨wellFormed_programmed _ _, by decide, by decide +kernel, by decide +kernel⟩
  have hsteps : ∀ k : Fin 8, events[k].isStep = true →
      ∀ key, (m.run (.recorder true) (events.take k)).keypad.isHeld key = false := by
    decide +kernel
  have hidle : m.Idle (.recorder true) events := by
    refine ⟨by decide, fun n hn => ?_⟩
    obtain ⟨hlt, hstep⟩ := List.getElem?_eq_some_iff.1 hn
    exact hsteps ⟨n, hlt⟩ (congrArg Event.isStep hstep)
  have hheld : ∀ key, (m.run (.recorder true) events).keypad.isHeld key =
      decide (key = 4 ∨ key = 7) := by
    decide +kernel
  obtain ⟨key, hkey, hlowest, -, hstate⟩ := (run_waitKey hawaits hidle).ends ⟨7, hheld 7⟩
  have hfour : key = 4 := by
    rw [hheld, decide_eq_true_eq] at hkey
    refine hkey.resolve_right ?_
    rintro rfl
    have hfree := hlowest 4 (by decide)
    rw [hheld] at hfree
    exact absurd hfree (by decide)
  subst hfour
  have haddress : m.address = Memory.programStart := address_of_start rfl
  rw [haddress] at hstate
  exact ⟨hawaits, hidle, hstate⟩

end Chip8.Machine
