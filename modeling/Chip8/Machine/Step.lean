import Chip8.Machine.Exec

/-!
# Steps

One step fetches the word at the program counter, moves the program counter two on and executes
the instruction of the word.  A fault of the fetch leaves the program counter where it was; a
later one leaves it past the faulting instruction and is told with that instruction's address and
word.

Where the program counter and the size of the memory are integers, a fetch fails exactly when the
word is not inside the memory as a whole (`fetch_eq_ok`, `fetch_eq_error`).
-/

namespace Chip8.Machine

/-! ### Fetching -/

/-- The program counter is outside the memory. -/
def fetchFault (pc : Number) : Fault where
  code := .outOfBounds
  detail := "program counter outside memory"
  context := { pc? := some pc }

/-- Whether the second byte of a word at the program counter would be past the last byte, or the
first before the first. -/
def isOutside (m : Machine) : Bool :=
  m.pc.value < 0 ∨ (m.memory.size.add (.ofInt (-1))).value < (m.pc.add (.ofInt 1)).value

/-- The word at the program counter. -/
def fetch (m : Machine) : Except Fault Int :=
  if m.isOutside then .error (fetchFault m.pc) else (m.memory.read16 m.pc).map Int.ofNat

/-! ### Executing -/

/-- The machine with its program counter on the following word, modulo `2 ^ 16`. -/
@[inline] def advance (m : Machine) : Machine := { m with pc := addressSum m.pc 2 }

/-- Executes the instruction of a word on a machine that has fetched it. -/
def executeWord (op : Int) (m : Machine) : Outcome Machine :=
  match Instruction.decode op with
  | .error f => { state := m, failure? := some (.fault f) }
  | .ok ins => m.execute (ins.map .ofInt)

/-- The rest of a step that has fetched a word. -/
def proceed (m : Machine) (op : Int) : Outcome Machine :=
  let context : FaultContext := { pc? := some m.pc, opcode? := some (.ofInt op) }
  (m.advance.executeWord op).withContext context

/-- One step. -/
def step (m : Machine) : Outcome Machine :=
  match m.fetch with
  | .error f => { state := m, failure? := some (.fault f) }
  | .ok op => m.proceed op

/-! ### Notes -/

/-- What is logged after a step. -/
def stepNote (pc op : Number) : String :=
  let digits (v : Number) := Text.padZeros 4 v.hex.toList
  String.ofList (digits pc ++ ':' :: ' ' :: digits op)

/-- The note of the step that a machine is about to make, if debug notes are wanted. -/
def pendingNote (m : Machine) (logger : Logger) : Array Log.Entry :=
  match logger.debugEnabled, m.fetch with
  | true, .ok op => (logger.debug (stepNote m.pc (.ofInt op))).toArray
  | _, _ => #[]

/-- One step with a note of its address and word, if it succeeds. -/
def loggedStep (m : Machine) (logger : Logger) : Outcome Machine :=
  let note := m.pendingNote logger
  let o := m.step
  match o.failure? with
  | none => { o with log := note }
  | some _ => o

/-! ### Laws -/

theorem isOutside_iff {m : Machine} {size : Nat} {pc : Int} (hsize : m.memory.size = .ofInt size)
    (hpc : m.pc = .ofInt pc) (hsize_lt : size < 0x20000000000000)
    (hpc_lt : (pc + 1).natAbs < 0x20000000000000) :
    m.isOutside ↔ pc < 0 ∨ (size : Int) < pc + 2 := by
  have hbound : ((size : Int) + -1).natAbs < 0x20000000000000 := by omega
  rw [isOutside, hsize, hpc, Number.add_ofInt hbound, Number.add_ofInt hpc_lt]
  simp only [Number.value_ofInt, decide_eq_true_eq, Rat.intCast_lt_intCast, Rat.intCast_neg_iff]
  omega

/-- A word inside the memory is fetched. -/
theorem fetch_eq_ok {m : Machine} {size pc : Nat} (hsize : m.memory.size = .ofInt size)
    (hpc : m.pc = .ofInt pc) (hsize_lt : size < 0x20000000000000) (hinside : pc + 2 ≤ size) :
    m.fetch = .ok (m.memory.wordAt pc) := by
  have hnot : ¬ m.isOutside := by
    rw [isOutside_iff hsize hpc hsize_lt (by omega)]; omega
  have hlocate : m.memory.locate (.ofInt pc) 2 = .ok pc := by
    rw [Memory.locate_eq_ok_iff, Memory.reach_of_size hsize]
    exact ⟨Number.toInt?_ofInt _, by omega⟩
  rw [fetch, if_neg hnot, hpc, Memory.read16, hlocate]
  rfl

/-- A word that is not inside the memory is a fault of the fetch. -/
theorem fetch_eq_error {m : Machine} {size : Nat} {pc : Int} (hsize : m.memory.size = .ofInt size)
    (hpc : m.pc = .ofInt pc) (hsize_lt : size < 0x20000000000000)
    (hpc_lt : (pc + 1).natAbs < 0x20000000000000)
    (houtside : pc < 0 ∨ (size : Int) < pc + 2) : m.fetch = .error (fetchFault m.pc) := by
  rw [fetch, if_pos ((isOutside_iff hsize hpc hsize_lt hpc_lt).2 houtside)]

end Chip8.Machine
