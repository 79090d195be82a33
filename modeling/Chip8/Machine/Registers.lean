import Chip8.Machine.Basic

/-!
# Registers

An instruction names a register by a number from 0 on and below 16; any other is a fault.  A host
may name one by a number with a fraction, which is no fault, but names no register: it has no
value, it keeps none, and where a value is needed zero takes its place.

Sums and differences come with a condition on their operands, carry or the absence of a borrow,
which an operand without a value never meets (`Machine.combine`).
-/

namespace Chip8

/-- The register that a number names, if it names one. -/
abbrev Register := Option (Fin 16)

namespace Machine

/-! ### Naming registers -/

/-- A number that is not between `V0` and `VF`. -/
def registerFault (index : Number) : Fault where
  code := .outOfBounds
  detail := "register index " ++ index.decimal ++ " outside V0-VF"

/-- The register with an integer as its number. -/
def integerRegister (index : Int) : Except Failure Register :=
  if 0 ≤ index ∧ index < 16 then .ok (some (Fin.ofNat 16 index.toNat))
  else .error (.fault (registerFault (.ofInt index)))

/-- The register with a number. -/
def register (index : Number) : Except Failure Register :=
  match index.toInt? with
  | some k => integerRegister k
  | none =>
    if 0 ≤ index.value ∧ index.value < 16 then .ok none
    else .error (.fault (registerFault index))

/-- Two registers, the first checked first. -/
def registers (x y : Number) : Except Failure (Register × Register) := do
  let r ← register x
  let s ← register y
  return (r, s)

/-- The flag register `VF`. -/
def flag : Fin 16 := 15

/-! ### Values -/

/-- The value of a register, if it has one. -/
def get? (m : Machine) (r : Register) : Option UInt8 := r.map m.v.get

/-- The value of a register; zero stands for none. -/
def get (m : Machine) (r : Register) : UInt8 := (m.get? r).getD 0

/-- The machine with a byte in a register, if there is one to keep it. -/
def set (m : Machine) (r : Register) (value : UInt8) : Machine :=
  r.elim m fun ⟨k, hk⟩ => { m with v := m.v.set k value hk }

/-- A byte as a number. -/
def numberOf (value : UInt8) : Number := .ofInt value.toNat

/-- Whether a register has a number as its value. -/
def holds (m : Machine) (r : Register) (n : Number) : Bool :=
  (m.get? r).any fun a => n.toInt? == some (a.toNat : Int)

/-- The value of a register as a coordinate. -/
def coordinate (m : Machine) (r : Register) : Number := (m.get? r).elim .nan numberOf

/-! ### Results with a flag -/

/-- A condition as a flag. -/
def flagValue (condition : Bool) : UInt8 := if condition then 1 else 0

/-- The sum of two bytes, and whether it has a carry. -/
def sumWithCarry (a b : UInt8) : UInt8 × Bool := (a + b, 0xFF < a.toNat + b.toNat)

/-- The difference of two bytes, and whether it needs no borrow. -/
def differenceWithoutBorrow (a b : UInt8) : UInt8 × Bool := (a - b, b ≤ a)

/-- The result of an operation on two values; zero, without its condition, if one is missing. -/
def combine (operation : UInt8 → UInt8 → UInt8 × Bool) (a? b? : Option UInt8) : UInt8 × Bool :=
  match a?, b? with
  | some a, some b => operation a b
  | _, _ => (0, false)

/-! ### Ranges of registers -/

/-- The registers from `V0` on that a transfer up to register `x` stores. -/
def block (m : Machine) (x : Number) : List UInt8 :=
  m.v.toList.take (Memory.rangeEnd 16 (x.add (.ofInt 1)).truncate)

/-- The registers with the first ones replaced. -/
def replaceFirst (v : Vector UInt8 16) (values : List UInt8) : Vector UInt8 16 :=
  Vector.ofFn fun k => values.getD k (v.get k)

/-! ### Laws -/

/-- An integer in the range of the registers names one. -/
theorem register_of_mem_range {k : Int} (h : 0 ≤ k ∧ k < 16) :
    register (.ofInt k) = .ok (some (Fin.ofNat 16 k.toNat)) := by
  simp [register, integerRegister, h]

/-- The numbers of the registers name them. -/
@[simp] theorem register_ofInt (k : Fin 16) : register (.ofInt (k.val : Int)) = .ok (some k) :=
  (register_of_mem_range (by omega)).trans (by simp)

@[simp] theorem registers_ofInt (k l : Fin 16) :
    registers (.ofInt (k.val : Int)) (.ofInt (l.val : Int)) = .ok (some k, some l) := by
  simp [registers]; rfl

section

variable (m : Machine) {k : Nat} (hk : k < 16)

@[simp] theorem get?_some : m.get? (some ⟨k, hk⟩) = some m.v[k] := rfl

@[simp] theorem get_some : m.get (some ⟨k, hk⟩) = m.v[k] := rfl

@[simp] theorem set_some (value : UInt8) :
    m.set (some ⟨k, hk⟩) value = { m with v := m.v.set k value } := rfl

end

@[simp] theorem combine_some (operation : UInt8 → UInt8 → UInt8 × Bool) (a b : UInt8) :
    combine operation (some a) (some b) = operation a b := rfl

end Machine

end Chip8
