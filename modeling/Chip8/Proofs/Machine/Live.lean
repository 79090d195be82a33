import Chip8.Proofs.Machine.Run
import Chip8.Proofs.Outcome

/-!
# What a program can tell

Some of the state of a machine never comes back to the program that runs on it: the sound timer,
which only counts down, the version of the display, which is for the host, and the slots of the
call stack past its depth, which a call overwrites before a return reads them.  Two machines that
differ in these alone have the same live state (`LiveEq`).

Live state is all that an instruction reads, for its effect as well as for its failure.  So an
instruction takes machines with the same live state to such machines again
(`LiveEq.alike_execute`), and so does all that a host may do (`LiveEq.alike_perform`).  Along
whole runs the two stay in step (`run_liveEq`).
-/

namespace Chip8

theorem Display.drawAt_eq_of_pixels {d d' : Display} (h : d.pixels = d'.pixels) (x y : Number)
    (rows : List Int) :
    (d.drawAt x y rows).1.pixels = (d'.drawAt x y rows).1.pixels ∧
      (d.drawAt x y rows).2 = (d'.drawAt x y rows).2 := by
  obtain ⟨pixels, version⟩ := d
  obtain ⟨pixels', version'⟩ := d'
  obtain rfl : pixels = pixels' := h
  unfold drawAt
  split <;> exact ⟨rfl, rfl⟩

namespace Machine

/-- Machines with the same live state.  They may differ in the sound timer, in the version of the
display and in the slots of the call stack past its depth; the pending return addresses are as
many as the depth tells. -/
structure LiveEq (m m' : Machine) : Prop where
  v_eq : m.v = m'.v
  i_eq : m.i = m'.i
  pc_eq : m.pc = m'.pc
  depth_eq : m.stack.depth = m'.stack.depth
  pending_eq : m.stack.pending = m'.stack.pending
  dt_eq : m.dt = m'.dt
  memory_eq : m.memory = m'.memory
  pixels_eq : m.display.pixels = m'.display.pixels
  keypad_eq : m.keypad = m'.keypad
  random_eq : m.random = m'.random

/-- Call stacks with the same pending return addresses have the same depth. -/
theorem depth_eq_of_pending {s s' : CallStack} (h : s.pending = s'.pending) :
    s.depth = s'.depth := by
  have hlength := congrArg List.length h
  rw [CallStack.length_pending, CallStack.length_pending] at hlength
  exact Fin.ext hlength

namespace LiveEq

variable {m m' : Machine} (h : m.LiveEq m')

include h

/-! ### What instructions read -/

theorem get?_eq (r : Register) : m.get? r = m'.get? r := by
  rw [get?, get?, h.v_eq]

theorem get_eq (r : Register) : m.get r = m'.get r := by
  rw [get, get, h.get?_eq]

theorem holds_eq (r : Register) (n : Number) : m.holds r n = m'.holds r n := by
  rw [holds, holds, h.get?_eq]

theorem coordinate_eq (r : Register) : m.coordinate r = m'.coordinate r := by
  rw [coordinate, coordinate, h.get?_eq]

theorem block_eq (x : Number) : m.block x = m'.block x := by
  rw [block, block, h.v_eq]

theorem access_eq (len : Int) : m.access len = m'.access len := by
  rw [access, access, h.memory_eq, h.i_eq]

theorem excerpt_eq (len : Number) : m.excerpt len = m'.excerpt len := by
  rw [excerpt, excerpt, h.memory_eq, h.i_eq]

theorem spriteRows_eq (n : Number) : m.spriteRows n = m'.spriteRows n := by
  rw [spriteRows, spriteRows, h.excerpt_eq]

theorem incoming_eq (x : Number) : m.incoming x = m'.incoming x := by
  rw [incoming, incoming, h.excerpt_eq]

theorem fetch_eq : m.fetch = m'.fetch := by
  rw [fetch, fetch, isOutside, isOutside, h.pc_eq, h.memory_eq]

/-! ### What instructions write -/

theorem set (r : Register) {b b' : UInt8} (hb : b = b') : (m.set r b).LiveEq (m'.set r b') := by
  subst hb
  cases r with
  | none => exact h
  | some k => exact { h with v_eq := congrArg (Vector.set · k.val b) h.v_eq }

theorem skipIf {condition condition' : Bool} (hcondition : condition = condition') :
    (m.skipIf condition).LiveEq (m'.skipIf condition') := by
  subst hcondition
  cases condition with
  | false => exact h
  | true => exact { h with pc_eq := congrArg (addressSum · 2) h.pc_eq }

theorem withStack {s s' : CallStack} (hs : s.pending = s'.pending) (pc : Number) :
    LiveEq { m with stack := s, pc } { m' with stack := s', pc } :=
  { h with pc_eq := rfl, depth_eq := depth_eq_of_pending hs, pending_eq := hs }

theorem withDisplay {d d' : Display} (hd : d.pixels = d'.pixels) :
    LiveEq { m with display := d } { m' with display := d' } :=
  { h with pixels_eq := hd }

theorem store (position : Nat) (data : List UInt8) :
    LiveEq { m with memory := m.memory.store position data }
      { m' with memory := m'.memory.store position data } :=
  { h with memory_eq := congrArg (Memory.store · position data) h.memory_eq }

/-! ### Instructions -/

/-- A return takes the same address off both stacks, or finds both empty. -/
theorem alike_ret : Outcome.Alike LiveEq (m.execute .ret) (m'.execute .ret) := by
  have hpending := h.pending_eq
  rw [execute, execute]
  cases hpop : m.stack.pop? with
  | none =>
    rw [CallStack.pop?_eq_none_iff, hpending, ← CallStack.pop?_eq_none_iff] at hpop
    rw [hpop]
    exact ⟨h, rfl⟩
  | some top =>
    obtain ⟨addr, stack⟩ := top
    cases hpop' : m'.stack.pop? with
    | none =>
      rw [CallStack.pop?_eq_none_iff, ← hpending, ← CallStack.pop?_eq_none_iff, hpop] at hpop'
      cases hpop'
    | some top' =>
      obtain ⟨addr', stack'⟩ := top'
      rw [CallStack.pending_pop? hpop, CallStack.pending_pop? hpop'] at hpending
      obtain ⟨hrest, htop⟩ := List.append_inj' hpending rfl
      obtain rfl : addr = addr' := List.singleton_inj.1 htop
      exact .ok (h.withStack hrest _)

/-- A call adds the same address to both stacks, or finds both full. -/
theorem alike_call (addr : Number) :
    Outcome.Alike LiveEq (m.execute (.call addr)) (m'.execute (.call addr)) := by
  have hpending := h.pending_eq
  rw [execute, execute, h.pc_eq]
  cases hpush : m.stack.push? m'.pc.toUInt16 with
  | none =>
    rw [CallStack.push?_eq_none_iff, hpending, ← CallStack.push?_eq_none_iff m'.pc.toUInt16]
      at hpush
    rw [hpush]
    exact ⟨h, rfl⟩
  | some stack =>
    cases hpush' : m'.stack.push? m'.pc.toUInt16 with
    | none =>
      rw [CallStack.push?_eq_none_iff, ← hpending,
        ← CallStack.push?_eq_none_iff m'.pc.toUInt16, hpush] at hpush'
      cases hpush'
    | some stack' =>
      refine .ok (h.withStack ?_ _)
      rw [CallStack.pending_push? hpush, CallStack.pending_push? hpush', hpending]

/-- A random byte, once drawn, is the same for both. -/
theorem alike_random (x kk : Number) :
    Outcome.Alike LiveEq (m.execute (.random x kk)) (m'.execute (.random x kk)) := by
  rw [execute, execute, ← h.random_eq]
  generalize m.random.next = drawn
  obtain ⟨answer, random⟩ := drawn
  have hdrawn : LiveEq { m with random } { m' with random } := { h with random_eq := rfl }
  cases answer with
  | error e => exact ⟨hdrawn, rfl⟩
  | ok byte => exact .guarded hdrawn _ fun r => hdrawn.set r rfl

/-- Drawing reads the pixels and not the version. -/
theorem alike_draw (x y n : Number) :
    Outcome.Alike LiveEq (m.execute (.draw x y n)) (m'.execute (.draw x y n)) := by
  rw [execute, execute, h.spriteRows_eq]
  refine .guarded h _ ?_
  rintro ⟨rows, r, s⟩
  obtain ⟨hpixels, hcollision⟩ := Display.drawAt_eq_of_pixels h.pixels_eq (m'.coordinate r)
    (m'.coordinate s) (rows.map fun b => (b.toNat : Int))
  simp only [h.coordinate_eq]
  exact (h.withDisplay hpixels).set _ (congrArg flagValue hcollision)

/-- While no key is held the instruction is gone back to, and else the same key is stored. -/
theorem alike_waitKey (x : Number) :
    Outcome.Alike LiveEq (m.execute (.waitKey x)) (m'.execute (.waitKey x)) := by
  have hkey : m.keypad.firstPressed? = m'.keypad.firstPressed? := by rw [h.keypad_eq]
  rw [execute, execute, hkey]
  cases m'.keypad.firstPressed? with
  | none => exact .ok { h with pc_eq := congrArg (addressSum · (-2)) h.pc_eq }
  | some key => exact .guarded h _ fun r => h.set r rfl

/-- Live state is all that an instruction reads, whatever its operands. -/
theorem alike_execute (ins : Instruction Number) :
    Outcome.Alike LiveEq (m.execute ins) (m'.execute ins) := by
  cases ins
  case ret => exact h.alike_ret
  case call addr => exact h.alike_call addr
  case random x kk => exact h.alike_random x kk
  case draw x y n => exact h.alike_draw x y n
  case waitKey x => exact h.alike_waitKey x
  case clear => exact .ok (h.withDisplay rfl)
  case jump addr => exact .ok { h with pc_eq := rfl }
  case jumpOffset addr =>
    refine .ok { h with pc_eq := ?_ }
    rw [h.v_eq]
  case setIndex addr => exact .ok { h with i_eq := rfl }
  -- a condition on registers or keys decides whether the next instruction is passed over
  case skipIfImm x kk => exact .guarded h _ fun r => h.skipIf (h.holds_eq r kk)
  case skipUnlessImm x kk => exact .guarded h _ fun r => h.skipIf (by rw [h.holds_eq])
  case skipIfReg x y => exact .guarded h _ fun r => h.skipIf (by rw [h.get?_eq, h.get?_eq])
  case skipUnlessReg x y => exact .guarded h _ fun r => h.skipIf (by rw [h.get?_eq, h.get?_eq])
  case skipIfKey x => exact .guarded h _ fun r => h.skipIf (by rw [h.keypad_eq, h.get_eq])
  case skipUnlessKey x => exact .guarded h _ fun r => h.skipIf (by rw [h.keypad_eq, h.get_eq])
  -- a register gets a value that registers and the delay timer decide
  case setImm x kk => exact .guarded h _ fun r => h.set r rfl
  case addImm x kk => exact .guarded h _ fun r => h.set r (by rw [h.get_eq])
  case copy x y => exact .guarded h _ fun r => h.set r.2 (h.get_eq r.1)
  case or x y => exact .guarded h _ fun r => h.set r.1 (by rw [h.get_eq, h.get_eq])
  case and x y => exact .guarded h _ fun r => h.set r.1 (by rw [h.get_eq, h.get_eq])
  case xor x y => exact .guarded h _ fun r => h.set r.1 (by rw [h.get_eq, h.get_eq])
  case readDelay x => exact .guarded h _ fun r => h.set r h.dt_eq
  -- a flag and a result, in either order
  case add x y =>
    refine .guarded h _ fun r => ?_
    simp only [h.get?_eq]
    exact (h.set _ rfl).set _ rfl
  case sub x y =>
    refine .guarded h _ fun r => ?_
    simp only [h.get?_eq]
    exact (h.set _ rfl).set _ rfl
  case subFrom x y =>
    refine .guarded h _ fun r => ?_
    simp only [h.get?_eq]
    exact (h.set _ rfl).set _ rfl
  case shiftRight x y =>
    refine .guarded h _ fun r => ?_
    simp only [h.get_eq]
    exact (h.set _ rfl).set _ rfl
  case shiftLeft x y =>
    refine .guarded h _ fun r => ?_
    simp only [h.get_eq]
    exact (h.set _ rfl).set _ rfl
  -- timers and the index register
  case setDelay x => exact .guarded h _ fun r => { h with dt_eq := h.get_eq r }
  case setSound x => exact .guarded h _ fun r => { h with }
  case addIndex x =>
    refine .guarded h _ fun r => { h with i_eq := ?_ }
    rw [h.get?_eq, h.i_eq]
  case glyph x =>
    refine .guarded h _ fun r => { h with i_eq := ?_ }
    rw [h.get_eq]
  -- transfers between registers and memory
  case storeDecimal x =>
    rw [execute, execute]
    simp only [h.get_eq, h.access_eq]
    exact .guarded h _ fun found => h.store _ _
  case storeRegisters x =>
    rw [execute, execute]
    simp only [h.block_eq, h.access_eq]
    exact .guarded h _ fun position => h.store _ _
  case loadRegisters x =>
    rw [execute, execute, h.incoming_eq]
    exact .guarded h _ fun values =>
      { h with v_eq := congrArg (replaceFirst · values) h.v_eq }

/-! ### Events -/

theorem alike_executeWord (op : Int) :
    Outcome.Alike LiveEq (m.executeWord op) (m'.executeWord op) := by
  rw [executeWord, executeWord]
  cases Instruction.decode op with
  | error f => exact ⟨h, rfl⟩
  | ok ins => exact h.alike_execute _

theorem alike_step : Outcome.Alike LiveEq m.step m'.step := by
  rw [step, step, ← h.fetch_eq]
  cases m.fetch with
  | error f => exact ⟨h, rfl⟩
  | ok op =>
    have hadvance : m.advance.LiveEq m'.advance :=
      { h with pc_eq := congrArg (addressSum · 2) h.pc_eq }
    show Outcome.Alike LiveEq (m.proceed op) (m'.proceed op)
    rw [proceed, proceed, ← h.pc_eq]
    exact (hadvance.alike_executeWord op).withContext _

theorem withKeypad (keypad : Keypad) : LiveEq { m with keypad } { m' with keypad } :=
  { h with keypad_eq := rfl }

theorem tickTimers : m.tickTimers.LiveEq m'.tickTimers := by
  refine { h with dt_eq := ?_ }
  rw [Machine.tickTimers, Machine.tickTimers, h.dt_eq]

theorem alike_loadProgram (logger logger' : Logger) (rom : List UInt8) :
    Outcome.Alike LiveEq (m.loadProgram logger rom) (m'.loadProgram logger' rom) := by
  rw [loadProgram, loadProgram, ← h.memory_eq]
  cases Rom.validate rom.length with
  | error f => exact ⟨h, rfl⟩
  | ok _ =>
    cases m.memory.load start rom with
    | error f => exact ⟨h, rfl⟩
    | ok memory => exact ⟨{ h with memory_eq := rfl }, rfl⟩

theorem alike_reset : Outcome.Alike LiveEq m.reset m'.reset := by
  have hclear : m.memory.clear = m'.memory.clear := by rw [h.memory_eq]
  rw [reset, reset]
  simp only [hclear]
  cases m'.memory.clear.load (.ofInt Font.base) Font.bytes with
  | error f =>
    -- without room for the font, display and keys stay as they were
    exact ⟨⟨rfl, rfl, rfl, rfl, rfl, rfl, rfl, h.pixels_eq, h.keypad_eq, h.random_eq⟩, rfl⟩
  | ok memory => exact .ok ⟨rfl, rfl, rfl, rfl, rfl, rfl, rfl, rfl, rfl, h.random_eq⟩

/-- Whatever a host does to two machines with the same live state ends alike. -/
theorem alike_perform (logger logger' : Logger) (event : Event) :
    Outcome.Alike LiveEq (m.perform logger event) (m'.perform logger' event) := by
  cases event with
  | step =>
    have hstep := h.alike_step
    refine ⟨?_, ?_⟩
    · rw [perform, perform, state_loggedStep, state_loggedStep]
      exact hstep.state
    · rw [perform, perform, failure?_loggedStep, failure?_loggedStep]
      exact hstep.failure?_eq
  | tick => exact .ok h.tickTimers
  | setKey key pressed =>
    rw [perform, perform, h.keypad_eq]
    exact .guarded h _ h.withKeypad
  | keyEvent keymap code pressed =>
    rw [perform, perform, h.keypad_eq]
    exact .guarded h _ fun result => h.withKeypad result.1
  | load rom => exact h.alike_loadProgram logger logger' rom
  | reset => exact h.alike_reset

end LiveEq

/-! ### Runs -/

/-- How the events of a run end, one after the other. -/
def endings (logger : Logger) : List Event → Machine → List (Option Failure)
  | [], _ => []
  | event :: rest, m =>
    (m.perform logger event).failure? :: endings logger rest (m.perform logger event).state

/-- Machines with the same live state keep it in common whatever a host does to both, and every
event fails on both or on neither, with the same failure.  So a program never learns what the
sound timer, the version of the display and the dead slots of the call stack hold. -/
theorem run_liveEq (logger logger' : Logger) (events : List Event) {m m' : Machine}
    (h : m.LiveEq m') :
    (m.run logger events).LiveEq (m'.run logger' events) ∧
      endings logger events m = endings logger' events m' := by
  induction events generalizing m m' with
  | nil => exact ⟨h, rfl⟩
  | cons event rest ih =>
    have hfirst := h.alike_perform logger logger' event
    obtain ⟨hlive, hendings⟩ := ih hfirst.state
    refine ⟨hlive, ?_⟩
    rw [endings, endings, hfirst.failure?_eq, hendings]

/-- A machine with a program that returns once more than it calls. -/
def returning : Machine := programmed (.replay #[0xAB] 0) [0x22, 0x04, 0x00, 0xEE, 0x00, 0xEE]

/-- The same machine with sound, a display that has changed before and old return addresses. -/
def returningUsed : Machine :=
  { returning with
    st := 7
    display := { returning.display with version := 99 }
    stack := { returning.stack with slots := Vector.replicate 16 0x0ABC } }

/-- The second return fails for want of a call on both machines, and does not go to an old
address. -/
theorem run_liveEq_returning :
    let events : List Event := [.step, .tick, .step, .step]
    returning.LiveEq returningUsed ∧
      (returning.run (.recorder true) events).LiveEq
        (returningUsed.run (.console "chip8" false) events) ∧
      endings (.console "chip8" false) events returningUsed =
        [none, none, none, some (.fault ⟨.stackUnderflow, "return with empty stack",
          { pc? := some (.ofInt 0x202), opcode? := some (.ofInt 0x00EE) }⟩)] := by
  intro events
  have hstart : returning.LiveEq returningUsed := by
    constructor <;> rfl
  obtain ⟨hlive, hendings⟩ :=
    run_liveEq (.recorder true) (.console "chip8" false) events hstart
  refine ⟨hstart, hlive, ?_⟩
  rw [← hendings]
  decide +kernel

end Machine

end Chip8
