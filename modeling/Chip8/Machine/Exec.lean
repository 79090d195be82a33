import Chip8.Display.Placement
import Chip8.Instruction.Code
import Chip8.Machine.Registers

/-!
# Executing an instruction

`Machine.execute` is the effect of one instruction.  Every instruction checks first all that can
go wrong, in a fixed order, and changes the machine only afterwards, so a fault leaves the machine
as it was; the one exception is that a random byte, once drawn, stays drawn.

A flag is written before the result where the two may meet in `VF` for subtraction and shifts, and
after it for addition.

The operands are numbers, and sums are those of binary64 arithmetic (`Number.add`).  For operands
that fit their fields this is plain addition (`Number.add_ofInt`).
-/

namespace Chip8.Machine

/-! ### Parts of instructions -/

/-- The sum of an address and an offset, cut to 16 bits. -/
@[inline] def addressSum (base : Number) (offset : Int) : Number :=
  .ofInt ((base.add (.ofInt offset)).truncate % 0x10000)

/-- The machine past the next instruction if a condition holds. -/
@[inline] def skipIf (m : Machine) (condition : Bool) : Machine :=
  if condition then { m with pc := addressSum m.pc 2 } else m

/-- The keypad position that a register value selects. -/
def keyOf (value : UInt8) : Fin 16 := ⟨value.toNat % 16, by omega⟩

/-- The decimal digits of a byte, the hundreds first. -/
def decimalDigits (value : UInt8) : List UInt8 := [value / 100, value / 10 % 10, value % 10]

/-- The position of an access that an instruction makes at the index register. -/
def access (m : Machine) (len : Int) : Except Failure Nat :=
  (m.memory.locate m.i len).mapError .fault

/-- The bytes that an instruction reads at the index register. -/
def excerpt (m : Machine) (len : Number) : Except Failure (List UInt8) :=
  (m.memory.excerpt m.i len).mapError .fault

/-- The rows of a sprite of some height; without a height nothing is read. -/
def spriteRows (m : Machine) (n : Number) : Except Failure (List UInt8) :=
  if 0 < n.value then m.excerpt n else .ok []

/-- The bytes that a transfer up to register `x` loads; there may be no more of them than
registers. -/
def incoming (m : Machine) (x : Number) : Except Failure (List UInt8) := do
  let values ← m.excerpt (x.add (.ofInt 1))
  if values.length ≤ 16 then return values else throw Storage.overrun

/-! ### Instructions -/

/-- The effect of an instruction. -/
def execute (ins : Instruction Number) (m : Machine) : Outcome Machine :=
  match ins with
  | .clear => .ok { m with display := m.display.clear }
  | .ret =>
    match m.stack.pop? with
    | none =>
      { state := m, failure? := some (.fault ⟨.stackUnderflow, "return with empty stack", {}⟩) }
    | some (addr, stack) => .ok { m with stack, pc := .ofInt addr.toNat }
  | .jump addr => .ok { m with pc := addr }
  | .call addr =>
    match m.stack.push? m.pc.toUInt16 with
    | none =>
      { state := m,
        failure? := some (.fault ⟨.stackOverflow, "call nesting exceeds 16 levels", {}⟩) }
    | some stack => .ok { m with stack, pc := addr }
  | .skipIfImm x kk => .guarded m (register x) fun r => m.skipIf (m.holds r kk)
  | .skipUnlessImm x kk => .guarded m (register x) fun r => m.skipIf (!m.holds r kk)
  | .skipIfReg x y =>
    .guarded m (registers x y) fun (r, s) => m.skipIf (m.get? r == m.get? s)
  | .skipUnlessReg x y =>
    .guarded m (registers x y) fun (r, s) => m.skipIf (m.get? r != m.get? s)
  | .setImm x kk => .guarded m (register x) fun r => m.set r kk.toUInt8
  | .addImm x kk =>
    .guarded m (register x) fun r => m.set r ((numberOf (m.get r)).add kk).toUInt8
  | .copy x y => .guarded m (registers y x) fun (s, r) => m.set r (m.get s)
  | .or x y => .guarded m (registers x y) fun (r, s) => m.set r (m.get r ||| m.get s)
  | .and x y => .guarded m (registers x y) fun (r, s) => m.set r (m.get r &&& m.get s)
  | .xor x y => .guarded m (registers x y) fun (r, s) => m.set r (m.get r ^^^ m.get s)
  | .add x y =>
    .guarded m (registers x y) fun (r, s) =>
      let (sum, carry) := combine sumWithCarry (m.get? r) (m.get? s)
      (m.set r sum).set flag (flagValue carry)
  | .sub x y =>
    .guarded m (registers x y) fun (r, s) =>
      let (difference, noBorrow) := combine differenceWithoutBorrow (m.get? r) (m.get? s)
      (m.set flag (flagValue noBorrow)).set r difference
  | .shiftRight x _ =>
    .guarded m (register x) fun r =>
      let a := m.get r
      (m.set flag (a &&& 1)).set r (a >>> 1)
  | .subFrom x y =>
    .guarded m (registers x y) fun (r, s) =>
      let (difference, noBorrow) := combine differenceWithoutBorrow (m.get? s) (m.get? r)
      (m.set flag (flagValue noBorrow)).set r difference
  | .shiftLeft x _ =>
    .guarded m (register x) fun r =>
      let a := m.get r
      (m.set flag (a >>> 7)).set r (a <<< 1)
  | .setIndex addr => .ok { m with i := addr }
  | .jumpOffset addr => .ok { m with pc := addr.add (numberOf m.v[0]) }
  | .random x kk =>
    match m.random.next with
    | (.error e, random) => { state := { m with random }, failure? := some e }
    | (.ok byte, random) =>
      let m := { m with random }
      .guarded m (register x) fun r => m.set r (byte.toUInt8 &&& kk.toUInt8)
  | .draw x y n =>
    let check : Except Failure (List UInt8 × Register × Register) := do
      let rows ← m.spriteRows n
      let places ← registers x y
      return (rows, places)
    .guarded m check fun (rows, r, s) =>
      let (display, collision) :=
        m.display.drawAt (m.coordinate r) (m.coordinate s) (rows.map fun b => (b.toNat : Int))
      { m with display }.set flag (flagValue collision)
  | .skipIfKey x => .guarded m (register x) fun r => m.skipIf (m.keypad.isHeld (keyOf (m.get r)))
  | .skipUnlessKey x =>
    .guarded m (register x) fun r => m.skipIf (!m.keypad.isHeld (keyOf (m.get r)))
  | .readDelay x => .guarded m (register x) fun r => m.set r m.dt
  | .waitKey x =>
    match m.keypad.firstPressed? with
    | none => .ok { m with pc := addressSum m.pc (-2) }
    | some key => .guarded m (register x) fun r => m.set r (UInt8.ofNat key)
  | .setDelay x => .guarded m (register x) fun r => { m with dt := m.get r }
  | .setSound x => .guarded m (register x) fun r => { m with st := m.get r }
  | .addIndex x =>
    .guarded m (register x) fun r =>
      { m with i := (m.get? r).elim (.ofInt 0) fun a => addressSum m.i a.toNat }
  | .glyph x =>
    .guarded m (register x) fun r =>
      { m with i := .ofInt (Font.glyphAddress (m.get r).toNat) }
  | .storeDecimal x =>
    let check : Except Failure (UInt8 × Nat) := do
      let r ← register x
      let position ← m.access 3
      return (m.get r, position)
    .guarded m check fun (value, position) =>
      { m with memory := m.memory.store position (decimalDigits value) }
  | .storeRegisters x =>
    let values := m.block x
    .guarded m (m.access values.length) fun position =>
      { m with memory := m.memory.store position values }
  | .loadRegisters x => .guarded m (m.incoming x) fun values =>
    { m with v := replaceFirst m.v values }

/-! ### Laws -/

/-- A jump checks nothing. -/
theorem execute_jump (addr : Number) (m : Machine) :
    m.execute (.jump addr) = { state := { m with pc := addr } } := by
  rw [execute]
  rfl

end Chip8.Machine
