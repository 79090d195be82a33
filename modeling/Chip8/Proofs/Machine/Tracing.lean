import Chip8.Machine.Snapshot
import Chip8.Proofs.Instruction.Code
import Chip8.Proofs.Machine.View

/-!
# Machines that can be shown

A snapshot can be taken of a machine whose program counter and memory size are integers
(`Traceable`), wherever the program counter is and whatever word is there.  This asks for nothing
else: the memory may have any size, and the index register may be any number.

A step keeps it (`traceable_step`), since the fields of a word are integers, and so is every
address that an instruction made of them goes to.
-/

namespace Chip8.Machine

/-- An integer that binary64 numbers count exactly, and so is its successor. -/
def IsCounter (pc : Number) : Prop := ∃ k : Int, pc = .ofInt k ∧ (k + 1).natAbs < 0x20000000000000

/-- The program counter and the size of the memory are integers. -/
structure Traceable (m : Machine) : Prop where
  pc : IsCounter m.pc
  size : ∃ size : Nat, m.memory.size = .ofInt size

theorem Traceable.of_eq {m m' : Machine} (hm : m.Traceable) (hpc : m'.pc = m.pc)
    (hsize : m'.memory.size = m.memory.size) : m'.Traceable :=
  ⟨hpc ▸ hm.pc, hsize ▸ hm.size⟩

theorem Traceable.of_isCounter {m : Machine} (hm : m.Traceable) {pc : Number}
    (hpc : IsCounter pc) : Traceable { m with pc } :=
  ⟨hpc, hm.size⟩

theorem WellFormed.traceable {m : Machine} {size : Nat} (hm : m.WellFormed size) :
    m.Traceable := by
  have hlt := hm.address_lt
  exact ⟨⟨m.address, hm.pc_eq, by omega⟩, size, hm.size_eq⟩

/-! ### Taking a snapshot -/

theorem Traceable.observe_eq {m : Machine} (hm : m.Traceable) : m.observe = .ok m.snapshot := by
  obtain ⟨pc, hpc, hlt⟩ := hm.pc
  obtain ⟨size, hsize⟩ := hm.size
  exact observe_eq_ok hsize hpc hlt

/-- The snapshot shows the word at the program counter, if the memory has one there. -/
theorem op?_snapshot {m : Machine} {size : Nat} {pc : Int} (hsize : m.memory.size = .ofInt size)
    (hpc : m.pc = .ofInt pc) (hlt : (pc + 1).natAbs < 0x20000000000000) :
    m.snapshot.op? =
      if 0 ≤ pc ∧ pc + 2 ≤ size then some (.ofInt (m.memory.wordAt pc.toNat)) else none := by
  rw [snapshot, peek_eq_ok hsize hpc hlt]
  split <;> rfl

/-- A word that no instruction has is shown all the same. -/
theorem disassemble_of_decode_eq_error {op : Int} {f : Fault}
    (h : Instruction.decode op = .error f) : Instruction.disassemble (.ofInt op) = "???" := by
  rw [Instruction.disassemble, Instruction.ofNumber?_ofInt, (Instruction.decode_eq_error_iff.1 h).1]

/-! ### Steps -/

theorem isCounter_ofInt {k : Int} (h : 0 ≤ k ∧ k < 0x10000) : IsCounter (.ofInt k) :=
  ⟨k, rfl, by omega⟩

theorem isCounter_addressSum (base : Number) (offset : Int) : IsCounter (addressSum base offset) :=
  isCounter_ofInt (by omega)

theorem traceable_set {m : Machine} (hm : m.Traceable) (r : Register) (b : UInt8) :
    (m.set r b).Traceable := by
  cases r with
  | none => exact hm
  | some k => exact hm.of_eq rfl rfl

theorem traceable_skipIf {m : Machine} (hm : m.Traceable) (condition : Bool) :
    (m.skipIf condition).Traceable := by
  cases condition with
  | false => exact hm
  | true => exact hm.of_isCounter (isCounter_addressSum _ _)

theorem traceable_store {m : Machine} (hm : m.Traceable) (position : Nat) (data : List UInt8) :
    Traceable { m with memory := m.memory.store position data } :=
  hm.of_eq rfl (m.memory.size_store position data)

/-- An instruction whose operands fit their fields goes to an integer address. -/
theorem traceable_execute {ins : Instruction Int} (hins : ins.InRange) {m : Machine}
    (hm : m.Traceable) : (m.execute (ins.map .ofInt)).state.Traceable := by
  cases ins <;> simp only [Instruction.InRange] at hins <;> simp only [Instruction.map, execute]
  case jump addr => exact hm.of_isCounter (isCounter_ofInt (by omega))
  case jumpOffset addr =>
    have hv : m.v[0].toNat < 0x100 := UInt8.toNat_lt _
    have hsum : (addr + (m.v[0].toNat : Int)).natAbs < 0x20000000000000 := by omega
    refine hm.of_isCounter ?_
    rw [numberOf, Number.add_ofInt hsum]
    exact isCounter_ofInt (by omega)
  case ret =>
    cases m.stack.pop? with
    | none => exact hm
    | some top =>
      have htop : top.1.toNat < 0x10000 := UInt16.toNat_lt _
      exact ⟨isCounter_ofInt (by omega), hm.size⟩
  case call addr =>
    cases m.stack.push? m.pc.toUInt16 with
    | none => exact hm
    | some stack => exact ⟨isCounter_ofInt (by omega), hm.size⟩
  case random x kk =>
    generalize m.random.next = drawn
    obtain ⟨answer, random⟩ := drawn
    have hm' : Traceable { m with random } := hm.of_eq rfl rfl
    cases answer with
    | error e => exact hm'
    | ok byte => exact Outcome.holds_guarded hm' fun r => traceable_set hm' _ _
  case waitKey x =>
    cases m.keypad.firstPressed? with
    | none => exact hm.of_isCounter (isCounter_addressSum _ _)
    | some key => exact Outcome.holds_guarded hm fun r => traceable_set hm _ _
  case draw =>
    refine Outcome.holds_guarded hm fun found => traceable_set ?_ _ _
    exact hm.of_eq rfl rfl
  case storeDecimal | storeRegisters =>
    exact Outcome.holds_guarded hm fun found => traceable_store hm _ _
  case skipIfImm | skipUnlessImm | skipIfReg | skipUnlessReg | skipIfKey | skipUnlessKey =>
    exact Outcome.holds_guarded hm fun found => traceable_skipIf hm _
  case setImm | addImm | copy | or | and | xor | readDelay =>
    exact Outcome.holds_guarded hm fun found => traceable_set hm _ _
  case add | sub | subFrom | shiftRight | shiftLeft =>
    exact Outcome.holds_guarded hm fun found => traceable_set (traceable_set hm _ _) _ _
  -- the other rows keep the program counter and the memory
  case clear | setIndex => exact hm.of_eq rfl rfl
  case setDelay | setSound | addIndex | glyph | loadRegisters =>
    exact Outcome.holds_guarded hm fun found => hm.of_eq rfl rfl

theorem traceable_step {m : Machine} (hm : m.Traceable) : m.step.state.Traceable := by
  rw [step]
  cases m.fetch with
  | error f => exact hm
  | ok op =>
    have hadvance : m.advance.Traceable := hm.of_isCounter (isCounter_addressSum _ _)
    simp only [proceed, Outcome.state_withContext, executeWord]
    cases hdecode : Instruction.decode op with
    | error f => exact hadvance
    | ok ins =>
      have hins := Instruction.encode_of_decode? (Instruction.decode_eq_ok_iff.1 hdecode)
      exact traceable_execute hins.1 hadvance

/-! ### Restarts -/

theorem traceable_reset {m : Machine} (hm : m.Traceable) : m.reset.state.Traceable := by
  have hstart : IsCounter start := isCounter_ofInt (by decide)
  obtain ⟨size, hsize⟩ := hm.size
  unfold reset
  cases hload : m.memory.clear.load (.ofInt Font.base) Font.bytes with
  | error f =>
    simp only [hload]
    exact ⟨hstart, size, hsize⟩
  | ok memory =>
    simp only [hload]
    exact ⟨hstart, size, (Memory.size_of_load hload).1.trans hsize⟩

theorem traceable_loadProgram {m : Machine} (hm : m.Traceable) (logger : Logger)
    (rom : List UInt8) : (m.loadProgram logger rom).state.Traceable := by
  unfold loadProgram
  cases Rom.validate rom.length with
  | error f => exact hm
  | ok _ =>
    cases hload : m.memory.load start rom with
    | error f => exact hm
    | ok memory => exact hm.of_eq rfl (Memory.size_of_load hload).1

end Chip8.Machine
