import Chip8.Proofs.Machine.Arithmetic
import Chip8.Proofs.Machine.Run
import Mathlib.Data.List.Induction

/-!
# Timers along a run

A timer shows the value that it was given last, less the ticks since then, and never less than
zero.  It is given a value by a reset and by the steps that succeed at its word, `Fx15` or `Fx18`
(`Timer.given?`); no other event touches it but ticks (`value_perform`).

What was given last, and the ticks since then, are read off a history of the run: its events, each
with the machine that it happened to (`moments`).  The headline is `run_keepsTime`.
-/

namespace Chip8.Machine

/-! ### The two timers -/

/-- One of the two timers. -/
inductive Timer where
  | delay
  | sound

namespace Timer

/-- What a timer shows. -/
def get : Timer → Machine → UInt8
  | delay, m => m.dt
  | sound, m => m.st

/-- The machine with a byte in a timer. -/
def set : Timer → Machine → UInt8 → Machine
  | delay, m, b => { m with dt := b }
  | sound, m, b => { m with st := b }

/-- The low byte of the words that set a timer. -/
def code : Timer → Nat
  | delay => 0x15
  | sound => 0x18

/-- The instruction that sets a timer. -/
def setting {α : Type} : Timer → α → Instruction α
  | delay => .setDelay
  | sound => .setSound

end Timer

/-! ### Words that transfer -/

/-- The word `Fxkk`. -/
def transferWord (x : Fin 16) (kk : Nat) : Nat := 0xF000 + x.val * 0x100 + kk

/-- The register of a word `Fxkk` with the given low byte. -/
def transferred? (kk : Nat) (word : Int) : Option (Fin 16) :=
  (List.finRange 16).find? fun x => word = transferWord x kk

theorem transferred?_eq_some_iff {kk : Nat} {word : Int} {x : Fin 16} :
    transferred? kk word = some x ↔ word = transferWord x kk := by
  have hsound {y : Fin 16} (h : transferred? kk word = some y) : word = transferWord y kk := by
    simpa using List.find?_some h
  constructor
  · exact hsound
  · intro h
    have hfound : (transferred? kk word).isSome :=
      List.find?_isSome.2 ⟨x, List.mem_finRange x, decide_eq_true h⟩
    obtain ⟨y, hy⟩ := Option.isSome_iff_exists.1 hfound
    have hword := hsound hy
    have hxy : y = x := by
      rw [h, transferWord, transferWord] at hword
      omega
    rw [hy, hxy]

/-- A word that transfers a register is executed as the instruction whose pattern it has. -/
theorem executeWord_transferWord (m : Machine) (x : Fin 16) (kk : Nat) (ins : Instruction Nat)
    (hrange : (ins.map Nat.cast).InRange)
    (hencode : (ins.map Nat.cast).encode = Instruction.packByte 0xF x.val kk) :
    m.executeWord (transferWord x kk) = m.execute ((ins.map Nat.cast).map .ofInt) := by
  refine executeWord_of_matches m ⟨hrange, hencode.trans ?_⟩
  simp only [Instruction.packByte, transferWord]
  omega

/-- The word `Fx07` reads the delay timer, whatever the machine. -/
theorem executeWord_readDelay (m : Machine) (x : Fin 16) :
    m.executeWord (transferWord x 0x07) = .ok (m.set (some x) m.dt) := by
  have hx : 0 ≤ (x.val : Int) ∧ (x.val : Int) < 16 := by omega
  rw [executeWord_transferWord m x 0x07 (.readDelay x.val) hx rfl]
  simp only [Instruction.map, execute, register_ofInt, Outcome.guarded_ok]
  rfl

/-- The word that sets a timer can be executed on every machine. -/
theorem executeWord_setting (timer : Timer) (m : Machine) (x : Fin 16) :
    m.executeWord (transferWord x timer.code) = .ok (timer.set m (m.v.get x)) := by
  have hx : 0 ≤ (x.val : Int) ∧ (x.val : Int) < 16 := by omega
  have hword : m.executeWord (transferWord x timer.code) =
      m.execute (timer.setting (.ofInt x.val)) := by
    cases timer with
    | delay => exact executeWord_transferWord m x 0x15 (.setDelay x.val) hx rfl
    | sound => exact executeWord_transferWord m x 0x18 (.setSound x.val) hx rfl
  rw [hword]
  cases timer <;> simp only [Timer.setting, execute, register_ofInt, Outcome.guarded_ok] <;> rfl

/-! ### Instructions that leave a timer alone -/

/-- The second machine shows the same on both timers. -/
def SameTimers (m m' : Machine) : Prop := m'.dt = m.dt ∧ m'.st = m.st

theorem SameTimers.get_eq {m m' : Machine} (h : SameTimers m m') (timer : Timer) :
    timer.get m' = timer.get m := by
  cases timer with
  | delay => exact h.1
  | sound => exact h.2

theorem sameTimers_set {m m' : Machine} (h : m.SameTimers m') (r : Register) (b : UInt8) :
    m.SameTimers (m'.set r b) := by
  cases r <;> exact h

theorem sameTimers_skipIf (m : Machine) (condition : Bool) :
    m.SameTimers (m.skipIf condition) := by
  cases condition <;> exact ⟨rfl, rfl⟩

/-- Only the two instructions that set a timer touch one. -/
theorem sameTimers_execute {ins : Instruction Number} (hdelay : ∀ x, ins ≠ .setDelay x)
    (hsound : ∀ x, ins ≠ .setSound x) (m : Machine) : m.SameTimers (m.execute ins).state := by
  have hm : m.SameTimers m := ⟨rfl, rfl⟩
  cases ins <;> simp only [execute]
  case setDelay x => exact absurd rfl (hdelay x)
  case setSound x => exact absurd rfl (hsound x)
  case ret => cases m.stack.pop? <;> exact ⟨rfl, rfl⟩
  case call => cases m.stack.push? m.pc.toUInt16 <;> exact ⟨rfl, rfl⟩
  case random =>
    generalize m.random.next = drawn
    obtain ⟨answer, random⟩ := drawn
    have hrandom : m.SameTimers { m with random } := ⟨rfl, rfl⟩
    cases answer with
    | error e => exact hrandom
    | ok byte => exact Outcome.holds_guarded hrandom fun r => sameTimers_set hrandom _ _
  case draw =>
    refine Outcome.holds_guarded hm fun found => ?_
    exact sameTimers_set ⟨rfl, rfl⟩ _ _
  case waitKey =>
    cases m.keypad.firstPressed? with
    | none => exact ⟨rfl, rfl⟩
    | some key => exact Outcome.holds_guarded hm fun r => sameTimers_set hm _ _
  case skipIfImm | skipUnlessImm | skipIfReg | skipUnlessReg | skipIfKey | skipUnlessKey =>
    exact Outcome.holds_guarded hm fun found => sameTimers_skipIf m _
  case setImm | addImm | copy | or | and | xor | readDelay =>
    exact Outcome.holds_guarded hm fun found => sameTimers_set hm _ _
  case add | sub | subFrom | shiftRight | shiftLeft =>
    exact Outcome.holds_guarded hm fun found => sameTimers_set (sameTimers_set hm _ _) _ _
  -- the other instructions write a part of the machine that is no timer
  case clear | jump | setIndex | jumpOffset => exact ⟨rfl, rfl⟩
  case addIndex | glyph | storeDecimal | storeRegisters | loadRegisters =>
    exact Outcome.holds_guarded hm fun found => ⟨rfl, rfl⟩

/-- What sets the other timer leaves this one alone as well. -/
theorem get_execute (timer : Timer) {ins : Instruction Number} (h : ∀ x, ins ≠ timer.setting x)
    (m : Machine) : timer.get (m.execute ins).state = timer.get m := by
  by_cases hsets : ∃ other : Timer, ∃ x, ins = other.setting x
  · obtain ⟨other, x, rfl⟩ := hsets
    cases timer <;> cases other
    case delay.delay | sound.sound => exact absurd rfl (h x)
    case delay.sound | sound.delay =>
      exact Outcome.holds_guarded (P := fun m' => Timer.get _ m' = Timer.get _ m) rfl fun _ => rfl
  · have hnone : ∀ (other : Timer) x, ins ≠ other.setting x :=
      fun other x hins => hsets ⟨other, x, hins⟩
    exact (sameTimers_execute (hnone .delay) (hnone .sound) m).get_eq timer

/-- An instruction that sets a timer has the word that does. -/
theorem exists_transferWord {timer : Timer} {ins : Instruction Int} {x : Number}
    (hrange : ins.InRange) (hins : ins.map Number.ofInt = timer.setting x) :
    ∃ y : Fin 16, ins.encode = transferWord y timer.code := by
  have hword {k : Int} (hk : 0 ≤ k ∧ k < 16) (kk : Nat) :
      ∃ y : Fin 16, Instruction.packByte 0xF k kk = transferWord y kk := by
    refine ⟨⟨k.toNat, by omega⟩, ?_⟩
    simp only [Instruction.packByte, transferWord]
    omega
  cases timer <;> cases ins <;> cases hins
  case delay.setDelay k => exact hword hrange 0x15
  case sound.setSound k => exact hword hrange 0x18

/-- A word of another pattern leaves the timer alone. -/
theorem get_executeWord (timer : Timer) {word : Int} (hword : 0 ≤ word ∧ word < 0x10000)
    (h : transferred? timer.code word = none) (m : Machine) :
    timer.get (m.executeWord word).state = timer.get m := by
  unfold executeWord
  cases hdecode : Instruction.decode word with
  | error f => rfl
  | ok ins =>
    have hdecode? := Instruction.decode_eq_ok_iff.1 hdecode
    obtain ⟨hrange, hencode⟩ := (Instruction.decode?_eq_some_iff hword ins).1 hdecode?
    apply get_execute
    intro x hins
    obtain ⟨y, hy⟩ := exists_transferWord hrange hins
    have hsome := transferred?_eq_some_iff.2 (hencode.symm.trans hy)
    rw [h] at hsome
    cases hsome

/-! ### Events -/

/-- The value that an event gives to a timer: a reset gives zero, and a step that succeeds at the
word that sets the timer the value of the register of the word. -/
def Timer.given? (timer : Timer) (logger : Logger) (m : Machine) : Event → Option Nat
  | .step =>
    match m.fetch, (m.loggedStep logger).failure? with
    | .ok word, none => (transferred? timer.code word).map fun x => (m.v.get x).toNat
    | _, _ => none
  | .reset => some 0
  | _ => none

/-- A step sets a timer at its word alone. -/
theorem value_step (timer : Timer) (logger : Logger) (m : Machine) :
    (timer.get m.step.state).toNat =
      (timer.given? logger m .step).getD (timer.get m).toNat := by
  cases hfetch : m.fetch with
  | error f =>
    have hgiven : timer.given? logger m .step = none := by rw [Timer.given?, hfetch]
    rw [hgiven, step, hfetch]
    rfl
  | ok word =>
    have hadvance : timer.get m.advance = timer.get m := by cases timer <;> rfl
    have hstep := step_of_fetch hfetch
    cases hx : transferred? timer.code word with
    | none =>
      have hgiven : timer.given? logger m .step = none := by
        rw [Timer.given?, hfetch]
        cases (m.loggedStep logger).failure? with
        | none => exact congrArg (Option.map _) hx
        | some e => rfl
      rw [hgiven, hstep, proceed, Outcome.state_withContext,
        get_executeWord timer (fetch_range hfetch) hx, hadvance]
      rfl
    | some x =>
      obtain rfl := transferred?_eq_some_iff.1 hx
      rw [proceed, executeWord_setting] at hstep
      have hgiven : timer.given? logger m .step = some (m.v.get x).toNat := by
        rw [Timer.given?, failure?_loggedStep, hstep, hfetch]
        exact congrArg (Option.map _) hx
      rw [hgiven, hstep]
      cases timer <;> rfl

/-- A timer that is at zero stays there. -/
theorem toNat_tick (b : UInt8) : (if b = 0 then 0 else b - 1).toNat = b.toNat - 1 := by
  have hlt := b.toNat_lt
  split_ifs with hb
  · rw [hb]
    rfl
  · have hpos : b.toNat ≠ 0 := fun h => hb (UInt8.toNat_inj.1 h)
    rw [toNat_sub, UInt8.toNat_one]
    omega

theorem sameTimers_loadProgram (m : Machine) (logger : Logger) (rom : List UInt8) :
    m.SameTimers (m.loadProgram logger rom).state := by
  unfold loadProgram
  cases Rom.validate rom.length with
  | error f => exact ⟨rfl, rfl⟩
  | ok _ => cases m.memory.load start rom <;> exact ⟨rfl, rfl⟩

theorem get_reset (timer : Timer) (m : Machine) : timer.get m.reset.state = 0 := by
  unfold reset
  cases hload : m.memory.clear.load (.ofInt Font.base) Font.bytes <;> cases timer <;>
    simp only [hload] <;> rfl

/-- An event gives a timer a value, or it is a tick, which takes one away, or it does nothing to
the timer. -/
theorem value_perform (timer : Timer) (logger : Logger) (m : Machine) (event : Event) :
    (timer.get (m.perform logger event).state).toNat =
      match timer.given? logger m event with
      | some value => value
      | none => (timer.get m).toNat - if event.isTick then 1 else 0 := by
  cases event with
  | step =>
    rw [perform, state_loggedStep, value_step timer logger]
    cases timer.given? logger m .step <;> rfl
  | tick => cases timer <;> exact toNat_tick _
  | setKey key pressed =>
    obtain ⟨keypad, hstate⟩ := perform_of_setsKeys logger m (.setKey key pressed) rfl
    rw [hstate]
    cases timer <;> rfl
  | keyEvent keymap code pressed =>
    obtain ⟨keypad, hstate⟩ := perform_of_setsKeys logger m (.keyEvent keymap code pressed) rfl
    rw [hstate]
    cases timer <;> rfl
  | load rom =>
    rw [perform, (sameTimers_loadProgram m logger rom).get_eq]
    rfl
  | reset =>
    rw [perform, get_reset]
    rfl

/-! ### Runs -/

/-- The events of a run, each with the machine that it happened to. -/
def moments (logger : Logger) : List Event → Machine → List (Machine × Event)
  | [], _ => []
  | event :: rest, m => (m, event) :: moments logger rest (m.perform logger event).state

theorem moments_concat (logger : Logger) (events : List Event) (event : Event) (m : Machine) :
    moments logger (events ++ [event]) m =
      moments logger events m ++ [(m.run logger events, event)] := by
  induction events generalizing m with
  | nil => rfl
  | cons first rest ih => exact congrArg ((m, first) :: ·) (ih _)

namespace Timer

/-- The value that a timer was given last. -/
def lastGiven (timer : Timer) (logger : Logger) (history : List (Machine × Event)) : Nat :=
  (history.reverse.findSome? fun (m, event) => timer.given? logger m event).getD 0

/-- The ticks since a timer was given a value. -/
def ticksSince (timer : Timer) (logger : Logger) (history : List (Machine × Event)) : Nat :=
  (history.reverse.takeWhile fun (m, event) => (timer.given? logger m event).isNone).countP
    fun (_, event) => event.isTick

end Timer

/-- A timer that starts at zero shows what it was given last, less the ticks since then. -/
theorem value_run (timer : Timer) (logger : Logger) (events : List Event) {m : Machine}
    (hm : timer.get m = 0) :
    (timer.get (m.run logger events)).toNat =
      timer.lastGiven logger (moments logger events m) -
        timer.ticksSince logger (moments logger events m) := by
  induction events using List.reverseRecOn with
  | nil =>
    show (timer.get m).toNat = 0
    rw [hm]
    rfl
  | append_singleton events event ih =>
    have hrun : m.run logger (events ++ [event]) =
        ((m.run logger events).perform logger event).state :=
      run_append logger m events [event]
    rw [hrun, value_perform, ih, moments_concat]
    simp only [Timer.lastGiven, Timer.ticksSince, List.reverse_append, List.reverse_singleton,
      List.singleton_append, List.findSome?_cons, List.takeWhile_cons]
    cases timer.given? logger (m.run logger events) event with
    | some value => rfl
    | none =>
      simp only [Option.isNone_none, if_true, List.countP_cons]
      rw [Nat.sub_sub]

/-- What the timers of a machine show after a history, and what looks at them sees. -/
structure KeepsTime (m : Machine) (logger : Logger) (history : List (Machine × Event)) :
    Prop where
  /-- A timer shows the value that it was given last, less the ticks since then. -/
  value : ∀ timer : Timer, (timer.get m).toNat =
    timer.lastGiven logger history - timer.ticksSince logger history
  /-- The sound is on until there have been as many ticks as the value of its timer. -/
  sounds : m.isSoundActive = true ↔
    Timer.sound.ticksSince logger history < Timer.sound.lastGiven logger history
  /-- A step at a word that reads the delay timer succeeds and stores what it shows. -/
  reads : ∀ x : Fin 16, m.fetch = .ok (transferWord x 0x07) →
    (m.loggedStep logger).failure? = none ∧
      ((m.loggedStep logger).state.v.get x).toNat =
        Timer.delay.lastGiven logger history - Timer.delay.ticksSince logger history

/-- From a reset on, whatever the memory holds then and whatever happens afterwards, both timers
count down from the value that they were given last, by the ticks since then. -/
theorem run_keepsTime (m : Machine) (memory : Memory) (logger : Logger) (events : List Event) :
    let start := { m.reset.state with memory }
    (start.run logger events).KeepsTime logger (moments logger events start) := by
  intro start
  have hstart (timer : Timer) : timer.get start = 0 := by
    have hreset := get_reset timer m
    cases timer <;> exact hreset
  have hvalue (timer : Timer) := value_run timer logger events (hstart timer)
  constructor
  case value => exact hvalue
  case sounds =>
    have hiff : (start.run logger events).isSoundActive = true ↔
        0 < (Timer.sound.get (start.run logger events)).toNat :=
      decide_eq_true_iff
    rw [hiff, hvalue .sound]
    exact Nat.sub_pos_iff_lt
  case reads =>
    intro x hfetch
    rw [failure?_loggedStep, state_loggedStep, step_of_fetch hfetch, ← hvalue .delay]
    simp only [proceed, executeWord_readDelay]
    exact ⟨rfl, congrArg UInt8.toNat (get_write_self _ x _)⟩

/-- The delay timer is set to 2 one tick before the sound timer is. -/
example :
    let memory := Memory.standard.store Memory.programStart [0x60, 0x02, 0xF0, 0x15, 0xF0, 0x18]
    let start := { (assembled .standard (.replay #[] 0)).reset.state with memory }
    let last := start.run (.recorder true) [.step, .step, .tick, .step, .tick]
    (last.dt, last.st, last.isSoundActive) = (0, 1, true) := by
  decide +kernel

end Chip8.Machine
