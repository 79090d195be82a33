import Chip8.Keypad.Keymap
import Chip8.Proofs.Machine.Step

/-!
# Runs of the machine

A host that owns a machine acts on it in any order: it steps, ticks, sets keys, loads programs and
resets (`Machine.Event`).  A run is the machine after a list of such events, whether they succeed
or not (`Machine.run`).

Along every run of a machine with the standard memory the numbers of the state keep within bounds
(`Bounded`).  The bounds of the program counter and of the call stack rest on each other: a return
goes where a call came from, and a call comes from inside the memory.  So the mask that keeps the
program counter within 16 bits never cuts anything.
-/

namespace Chip8.Machine

open Instruction (effect)

/-! ### Events -/

/-- What a host may do to a machine. -/
inductive Event where
  | step
  | tick
  | setKey (key : Number) (pressed : Bool)
  | keyEvent (keymap : Keymap) (code : String) (pressed : Bool)
  | load (rom : List UInt8)
  | reset

/-- The machine after an event, and how the event ended. -/
def perform (logger : Logger) (m : Machine) : Event → Outcome Machine
  | .step => m.loggedStep logger
  | .tick => .ok m.tickTimers
  | .setKey key pressed =>
    .guarded m ((m.keypad.setKey key pressed).mapError .fault) fun keypad => { m with keypad }
  | .keyEvent keymap code pressed =>
    .guarded m ((m.keypad.applyEvent keymap code pressed).mapError .fault) fun (keypad, _) =>
      { m with keypad }
  | .load rom => m.loadProgram logger rom
  | .reset => m.reset

/-- The machine after events. -/
def run (logger : Logger) (events : List Event) (m : Machine) : Machine :=
  events.foldl (fun m event => (m.perform logger event).state) m

theorem run_append (logger : Logger) (m : Machine) (events rest : List Event) :
    m.run logger (events ++ rest) = (m.run logger events).run logger rest :=
  List.foldl_append

namespace Event

def isStep : Event → Bool
  | .step => true
  | _ => false

def isTick : Event → Bool
  | .tick => true
  | _ => false

/-- The event sets keys, by a number or by the code of a host's key. -/
def setsKeys : Event → Bool
  | .setKey _ _ | .keyEvent _ _ _ => true
  | _ => false

end Event

/-- Setting keys changes the keypad at most, whether it succeeds or not. -/
theorem perform_of_setsKeys (logger : Logger) (m : Machine) (event : Event)
    (h : event.setsKeys = true) : ∃ keypad, (m.perform logger event).state = { m with keypad } := by
  cases event with
  | setKey key pressed =>
    rw [perform]
    cases (m.keypad.setKey key pressed).mapError Failure.fault with
    | error e => exact ⟨m.keypad, rfl⟩
    | ok keypad => exact ⟨keypad, rfl⟩
  | keyEvent keymap code pressed =>
    rw [perform]
    cases (m.keypad.applyEvent keymap code pressed).mapError Failure.fault with
    | error e => exact ⟨m.keypad, rfl⟩
    | ok result => exact ⟨result.1, rfl⟩
  | step | tick | load | reset => cases h

/-! ### Bounds -/

/-- The bounds that every event keeps. -/
structure Bounded (m : Machine) : Prop where
  wellFormed : m.WellFormed Memory.standardSize
  address_le : m.address ≤ 0x10FE
  stack_le : ∀ k, m.view.stack k ≤ 0x1000

/-- The keypad, the registers, the timers, the display and the bytes of the memory do not count. -/
theorem Bounded.of_eq {m m' : Machine} (hm : m.Bounded) (hi : m'.i = m.i) (hpc : m'.pc = m.pc)
    (hstack : m'.stack = m.stack) (hsize : m'.memory.size = m.memory.size)
    (hcount : m'.memory.bytes.size = m.memory.bytes.size) : m'.Bounded := by
  refine ⟨hm.wellFormed.of_eq hi hpc hsize hcount, ?_, ?_⟩
  · rw [address, hpc]
    exact hm.address_le
  · intro k
    have hk : m'.view.stack k = m.view.stack k := by
      simp only [view, hstack]
    rw [hk]
    exact hm.stack_le k

/-- A machine that starts is bounded. -/
theorem bounded_of_start {m : Machine} (hi : m.i = .ofInt 0) (hpc : m.pc = start)
    (hstack : m.stack = .empty) (hsize : m.memory.size = .ofInt Memory.standardSize)
    (hcount : m.memory.bytes.size = Memory.standardSize) : m.Bounded := by
  refine ⟨wellFormed_of_start hi hpc hsize hcount, ?_, ?_⟩
  · rw [address_of_start hpc]
    decide
  · intro k
    have hslot : m.view.stack k = 0 := by
      by_cases hk : k < 16
      · simp [view, hstack, CallStack.empty, hk]
      · simp [view, hstack, CallStack.empty, hk]
    omega

/-! ### The program counter and the call stack -/

theorem pc_skip_le (s : View) (condition : Bool) : (s.skip condition).pc ≤ s.pc + 2 := by
  cases condition with
  | false => exact Nat.le_add_right _ _
  | true => exact Nat.le_refl _

theorem stack_skip (s : View) (condition : Bool) : (s.skip condition).stack = s.stack := by
  cases condition <;> rfl

/-- A row keeps the bounds of the program counter and of the call stack, if the program counter is
inside the memory, or just past it, when the row begins. -/
theorem effect_bounds {ins : Instruction Nat} (hrange : (ins.map Nat.cast).InRange) {s : View}
    (hv : s.v 0 ≤ 0xFF) (hpc : s.pc ≤ 0x1000) (hstack : ∀ k, s.stack k ≤ 0x1000) :
    (ins.effect s).pc ≤ 0x10FE ∧ ∀ k, (ins.effect s).stack k ≤ 0x1000 := by
  have hpc' : s.pc ≤ 0x10FE := by omega
  have hskip (condition : Bool) :
      (s.skip condition).pc ≤ 0x10FE ∧ ∀ k, (s.skip condition).stack k ≤ 0x1000 := by
    have hle := pc_skip_le s condition
    rw [stack_skip]
    exact ⟨by omega, hstack⟩
  cases ins <;> simp only [Instruction.map, Instruction.InRange] at hrange
  -- a return goes where the stack says, and a call puts there where it comes from
  case ret => exact ⟨Nat.le_trans (hstack _) (by decide), hstack⟩
  case jump addr =>
    have haddr : addr ≤ 0x10FE := by omega
    exact ⟨haddr, hstack⟩
  case call addr =>
    have haddr : addr ≤ 0x10FE := by omega
    refine ⟨haddr, fun k => ?_⟩
    rw [effect]
    simp only [Function.update_apply]
    split
    · exact hpc
    · exact hstack k
  case jumpOffset addr =>
    -- this row goes furthest, as its sum is not cut to an address
    have hsum : addr + s.v 0 ≤ 0x10FE := by omega
    exact ⟨hsum, hstack⟩
  case waitKey =>
    rw [effect]
    cases s.lowestKey? with
    | none => exact ⟨Nat.le_trans (Nat.sub_le _ _) hpc', hstack⟩
    | some key => exact ⟨hpc', hstack⟩
  case skipIfImm | skipUnlessImm | skipIfReg | skipUnlessReg | skipIfKey | skipUnlessKey =>
    exact hskip _
  all_goals exact ⟨hpc', hstack⟩

theorem bounded_advance {m : Machine} (hm : m.Bounded) (hin : m.address + 2 ≤ 0x1000) :
    m.advance.Bounded := by
  have hadvance := reaches_advance hm.wellFormed (by omega)
  refine ⟨hadvance.wellFormed, ?_, hm.stack_le⟩
  rw [address_advance hm.wellFormed (by omega)]
  omega

theorem bounded_step {m : Machine} (hm : m.Bounded) : m.step.state.Bounded := by
  cases step_cases hm.wellFormed (by decide) with
  | fetchFails _ hstep =>
    rw [hstep]
    exact hm
  | matchesNone hin _ hstep =>
    rw [hstep]
    exact bounded_advance hm hin
  | fails hin ins _ e _ hfailure =>
    have hfetch := fetch_of_le hm.wellFormed (by decide) hin
    have hadvance := bounded_advance hm hin
    have hfails : m.step.failure?.isSome := by rw [hfailure]; rfl
    rcases state_step_of_failure hfetch hfails with hstate | hstate
    · rw [hstate]
      exact hadvance
    · rw [hstate]
      exact hadvance.of_eq rfl rfl rfl rfl rfl
  | succeeds hin ins hins _ hreaches =>
    have hv : m.view.advanced.v 0 ≤ 0xFF := Nat.le_of_lt_succ (UInt8.toNat_lt _)
    have hpc : m.view.advanced.pc ≤ 0x1000 := hin
    obtain ⟨hcounter, hstack⟩ := effect_bounds hins.1 hv hpc hm.stack_le
    rw [← hreaches.view_eq] at hcounter hstack
    exact ⟨hreaches.wellFormed, hcounter, hstack⟩

/-! ### The other events -/

theorem bounded_load {m : Machine} (hm : m.Bounded) (logger : Logger) (rom : List UInt8) :
    (m.loadProgram logger rom).state.Bounded := by
  unfold loadProgram
  cases Rom.validate rom.length with
  | error f => exact hm
  | ok _ =>
    cases hload : m.memory.load start rom with
    | error f => exact hm
    | ok memory =>
      obtain ⟨hsize, hcount⟩ := Memory.size_of_load hload
      exact hm.of_eq rfl rfl rfl hsize hcount

theorem bounded_reset {m : Machine} (hsize : m.memory.size = .ofInt Memory.standardSize)
    (hcount : m.memory.bytes.size = Memory.standardSize) : m.reset.state.Bounded := by
  have hcount' : m.memory.clear.bytes.size = Memory.standardSize := by
    rw [Memory.size_bytes_clear, hcount]
  unfold reset
  cases hload : m.memory.clear.load (.ofInt Font.base) Font.bytes with
  | error f =>
    simp only [hload]
    exact bounded_of_start rfl rfl rfl hsize hcount'
  | ok memory =>
    obtain ⟨hsize', hcount''⟩ := Memory.size_of_load hload
    simp only [hload]
    exact bounded_of_start rfl rfl rfl (hsize'.trans hsize) (hcount''.trans hcount')

theorem bounded_perform {m : Machine} (hm : m.Bounded) (logger : Logger) (event : Event) :
    (m.perform logger event).state.Bounded := by
  cases event with
  | step =>
    rw [perform, state_loggedStep]
    exact bounded_step hm
  | tick => exact hm.of_eq rfl rfl rfl rfl rfl
  | setKey key pressed =>
    obtain ⟨keypad, hstate⟩ := perform_of_setsKeys logger m (.setKey key pressed) rfl
    rw [hstate]
    exact hm.of_eq rfl rfl rfl rfl rfl
  | keyEvent keymap code pressed =>
    obtain ⟨keypad, hstate⟩ := perform_of_setsKeys logger m (.keyEvent keymap code pressed) rfl
    rw [hstate]
    exact hm.of_eq rfl rfl rfl rfl rfl
  | load rom => exact bounded_load hm logger rom
  | reset => exact bounded_reset hm.wellFormed.size_eq hm.wellFormed.count_eq

/-! ### Runs -/

theorem bounded_run (logger : Logger) (events : List Event) {m : Machine} (hm : m.Bounded) :
    (m.run logger events).Bounded := by
  induction events generalizing m with
  | nil => exact hm
  | cons event rest ih => exact ih (bounded_perform hm logger event)

/-- A machine that has just been made is bounded. -/
theorem bounded_powerOn (random : RandomSource) : (powerOn .standard random).state.Bounded :=
  bounded_reset (Memory.size_zeroed _) (Memory.size_bytes_zeroed _)

/-- All numbers of a machine are within their bounds. -/
structure InBounds (m : Machine) : Prop where
  v : ∀ b ∈ m.v, b.toNat ≤ 0xFF
  i : ∃ n : Nat, m.i = .ofInt n ∧ n ≤ 0xFFFF
  pc : ∃ n : Nat, m.pc = .ofInt n ∧ n ≤ 0x10FE
  sp : m.stack.depth.val ≤ 16
  stack : ∀ addr ∈ m.stack.slots, addr.toNat ≤ 0x1000
  dt : m.dt.toNat ≤ 0xFF
  st : m.st.toNat ≤ 0xFF
  size : m.memory.size = .ofInt 0x1000 ∧ m.memory.bytes.size = 0x1000
  memory : ∀ b ∈ m.memory.bytes, b.toNat ≤ 0xFF
  pixels : m.display.toBytes.size = 2048 ∧ ∀ b ∈ m.display.toBytes, b = 0 ∨ b = 1
  keys : m.keypad.held.toList.length = 16

theorem Bounded.inBounds {m : Machine} (hm : m.Bounded) : m.InBounds where
  v b _ := Nat.le_of_lt_succ (UInt8.toNat_lt b)
  i := ⟨m.index, hm.wellFormed.i_eq, Nat.le_of_lt_succ hm.wellFormed.index_lt⟩
  pc := ⟨m.address, hm.wellFormed.pc_eq, hm.address_le⟩
  sp := Nat.le_of_lt_succ m.stack.depth.isLt
  stack addr haddr := by
    obtain ⟨k, hk, rfl⟩ := Vector.mem_iff_getElem.1 haddr
    have hle := hm.stack_le k
    rwa [view_stack m hk] at hle
  dt := Nat.le_of_lt_succ (UInt8.toNat_lt _)
  st := Nat.le_of_lt_succ (UInt8.toNat_lt _)
  size := ⟨hm.wellFormed.size_eq, hm.wellFormed.count_eq⟩
  memory b _ := Nat.le_of_lt_succ (UInt8.toNat_lt b)
  pixels := ⟨m.display.size_toBytes, fun _ => Display.eq_zero_or_one_of_mem_toBytes⟩
  keys := Vector.length_toList

/-- The sums of addresses that a step makes are those without the mask. -/
theorem Bounded.addressSum_eq {m : Machine} (hm : m.Bounded) :
    m.advance.pc = m.pc.add (.ofInt 2) ∧
      addressSum m.advance.pc 2 = m.advance.pc.add (.ofInt 2) ∧
      addressSum m.advance.pc (-2) = m.advance.pc.add (.ofInt (-2)) := by
  have hle := hm.address_le
  have hpc : m.pc = .ofInt m.address := hm.wellFormed.pc_eq
  have hadvance : m.advance.pc = m.pc.add (.ofInt 2) := by
    rw [hpc, ← addressSum_eq_add (by omega), ← hpc]
    rfl
  have hnext : m.advance.pc = .ofInt (m.address + 2) := by
    rw [hadvance, hpc, Number.add_ofInt (by omega)]
  refine ⟨hadvance, ?_, ?_⟩
  · rw [hnext]
    exact addressSum_eq_add (by omega)
  · rw [hnext]
    exact addressSum_eq_add (by omega)

/-- Whatever a host does to a machine with the standard memory, and whatever its random source
answers, all numbers of the machine are within their bounds after it, and a step from there cuts
no address that it goes to. -/
theorem run_inBounds (random : RandomSource) (logger : Logger) (events : List Event) :
    let m := (powerOn .standard random).state.run logger events
    m.InBounds ∧
      m.advance.pc = m.pc.add (.ofInt 2) ∧
      addressSum m.advance.pc 2 = m.advance.pc.add (.ofInt 2) ∧
      addressSum m.advance.pc (-2) = m.advance.pc.add (.ofInt (-2)) := by
  have hm := bounded_run logger events (bounded_powerOn random)
  exact ⟨hm.inBounds, hm.addressSum_eq⟩

end Chip8.Machine
