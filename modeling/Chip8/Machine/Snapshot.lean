import Chip8.Instruction.Text
import Chip8.Machine.Step

/-!
# Trace lines

A snapshot is what a trace shows of a machine before a step: the registers, the timers and the
word that the step will fetch, if the program counter is inside the memory.  `Snapshot.line`
writes it for people, `Snapshot.record` as a JSON object.

To look at the word can itself fail, where the program counter or the size of the memory has a
fraction (`Machine.peek`).  `Machine.observe` takes a snapshot or tells that fault;
`Machine.snapshot` shows no word in that case.  With integers both are the same
(`Machine.observe_eq_ok`).
-/

namespace Chip8

/-- What a trace shows of a machine. -/
structure Snapshot where
  pc : Number
  /-- The word at the program counter. -/
  op? : Option Number
  i : Number
  sp : Number
  dt : Number
  st : Number
  v : List Number
deriving DecidableEq, Repr

namespace Machine

/-- Whether a word at the program counter would begin inside the memory, and not at its last
byte. -/
def isInside (m : Machine) : Bool :=
  0 ≤ m.pc.value ∧ (m.pc.add (.ofInt 1)).value < m.memory.extent

/-- The word at the program counter, if that is inside the memory. -/
def peek (m : Machine) : Except Fault (Option Nat) :=
  if m.isInside then (m.memory.read16 m.pc).map some else .ok none

/-- The snapshot of a machine with a word. -/
def showing (m : Machine) (op? : Option Nat) : Snapshot where
  pc := m.pc
  op? := op?.map fun op => .ofInt op
  i := m.i
  sp := .ofInt m.stack.depth.val
  dt := numberOf m.dt
  st := numberOf m.st
  v := m.v.toList.map numberOf

/-- The snapshot of a machine, or the fault of looking at the word. -/
def observe (m : Machine) : Except Fault Snapshot := m.peek.map m.showing

/-- The snapshot of a machine, without a word if there is none to look at. -/
def snapshot (m : Machine) : Snapshot := m.showing (m.peek.toOption.join)

/-- With integers, the word that is shown is there or not, and looking at it does not fail. -/
theorem peek_eq_ok {m : Machine} {size : Nat} {pc : Int} (hsize : m.memory.size = .ofInt size)
    (hpc : m.pc = .ofInt pc) (hpc_lt : (pc + 1).natAbs < 0x20000000000000) :
    m.peek = .ok (if 0 ≤ pc ∧ pc + 2 ≤ size then some (m.memory.wordAt pc.toNat) else none) := by
  have hinside : m.isInside ↔ 0 ≤ pc ∧ pc + 1 < size := by
    rw [isInside, Memory.extent, hsize, hpc, Number.add_ofInt hpc_lt]
    simp only [Number.value_ofInt, decide_eq_true_eq, Rat.intCast_lt_intCast, Rat.intCast_nonneg]
  by_cases h : 0 ≤ pc ∧ pc + 2 ≤ size
  · have hlocate : m.memory.locate (.ofInt pc) 2 = .ok pc.toNat := by
      rw [Memory.locate_eq_ok_iff, Memory.reach_of_size hsize, Number.toInt?_ofInt,
        Option.some.injEq]
      omega
    rw [peek, if_pos (hinside.2 (by omega)), if_pos h, hpc, Memory.read16, hlocate]
    rfl
  · rw [peek, if_neg (fun hin => h (by have := hinside.1 hin; omega)), if_neg h]

/-- With integers, a snapshot can always be taken. -/
theorem observe_eq_ok {m : Machine} {size : Nat} {pc : Int} (hsize : m.memory.size = .ofInt size)
    (hpc : m.pc = .ofInt pc) (hpc_lt : (pc + 1).natAbs < 0x20000000000000) :
    m.observe = .ok m.snapshot := by
  rw [observe, snapshot, peek_eq_ok hsize hpc hpc_lt]
  rfl

end Machine

namespace Snapshot

/-- A number in a trace line: base sixteen, upper case, at least the given count of characters. -/
def field (width : Nat) (value : Number) : List Char := Instruction.hexDigits width value

/-- A snapshot as a line of text, with the instruction at its end. -/
def lineChars (s : Snapshot) : List Char :=
  "PC=".toList ++ field 4 s.pc ++ " OP=".toList ++ (s.op?.elim "----".toList (field 4)) ++
    " I=".toList ++ field 4 s.i ++ " SP=".toList ++ field 1 s.sp ++
    " DT=".toList ++ field 2 s.dt ++ " ST=".toList ++ field 2 s.st ++
    " V=".toList ++ [' '].intercalate (s.v.map (field 2)) ++
    (s.op?.elim [] fun op => ' ' :: ' ' :: (Instruction.disassemble op).toList)

/-- A snapshot as a line of text. -/
def line (s : Snapshot) : String := String.ofList s.lineChars

/-- The number of a snapshot's word, `-1` for none. -/
def opNumber (s : Snapshot) : Number := s.op?.getD (.ofInt (-1))

/-- A name in a JSON object with the text of its value. -/
def member (name value : String) : String := "\"" ++ name ++ "\":" ++ value

/-- A snapshot as a JSON object, with the number of the step that it precedes. -/
def record (s : Snapshot) (step : Nat) : String :=
  let asm := s.op?.elim "null" fun op => "\"" ++ Instruction.disassemble op ++ "\""
  let members :=
    [member "step" (Number.ofInt step).decimal, member "PC" s.pc.decimal,
      member "OP" s.opNumber.decimal, member "I" s.i.decimal, member "SP" s.sp.decimal,
      member "DT" s.dt.decimal, member "ST" s.st.decimal,
      member "V" ("[" ++ ",".intercalate (s.v.map Number.decimal) ++ "]"), member "asm" asm]
  "\x7b" ++ ",".intercalate members ++ "\x7d"

end Snapshot

end Chip8
