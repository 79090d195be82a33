import Chip8.Number.Basic

/-!
# Instructions

The closed set of 34 instruction forms.  Operands are named after the letters of the opcode
patterns: `x` and `y` are register indices, `kk` an 8-bit and `n` a 4-bit constant, `addr` a
12-bit address.

The type of the operands is a parameter.  A word denotes an instruction whose operands are integers
that fit their fields (`Instruction.InRange`); a host may hand the machine an instruction with any
numbers as operands.  `Instruction.map` turns the one kind into the other.
-/

namespace Chip8

/-- An instruction with operands of type `α`. -/
inductive Instruction (α : Type) where
  /-- `00E0`: clear the display. -/
  | clear
  /-- `00EE`: return from a subroutine. -/
  | ret
  /-- `1nnn`: jump. -/
  | jump (addr : α)
  /-- `2nnn`: call a subroutine. -/
  | call (addr : α)
  /-- `3xkk`: skip the next instruction if `Vx = kk`. -/
  | skipIfImm (x kk : α)
  /-- `4xkk`: skip the next instruction unless `Vx = kk`. -/
  | skipUnlessImm (x kk : α)
  /-- `5xy0`: skip the next instruction if `Vx = Vy`. -/
  | skipIfReg (x y : α)
  /-- `6xkk`: `Vx := kk`. -/
  | setImm (x kk : α)
  /-- `7xkk`: `Vx := Vx + kk`, without flag. -/
  | addImm (x kk : α)
  /-- `8xy0`: `Vx := Vy`. -/
  | copy (x y : α)
  /-- `8xy1`: `Vx := Vx or Vy`. -/
  | or (x y : α)
  /-- `8xy2`: `Vx := Vx and Vy`. -/
  | and (x y : α)
  /-- `8xy3`: `Vx := Vx xor Vy`. -/
  | xor (x y : α)
  /-- `8xy4`: `Vx := Vx + Vy`, with carry. -/
  | add (x y : α)
  /-- `8xy5`: `Vx := Vx - Vy`, with the absence of a borrow. -/
  | sub (x y : α)
  /-- `8xy6`: shift `Vx` right; `y` plays no part. -/
  | shiftRight (x y : α)
  /-- `8xy7`: `Vx := Vy - Vx`, with the absence of a borrow. -/
  | subFrom (x y : α)
  /-- `8xyE`: shift `Vx` left; `y` plays no part. -/
  | shiftLeft (x y : α)
  /-- `9xy0`: skip the next instruction unless `Vx = Vy`. -/
  | skipUnlessReg (x y : α)
  /-- `Annn`: `I := nnn`. -/
  | setIndex (addr : α)
  /-- `Bnnn`: jump to `nnn + V0`. -/
  | jumpOffset (addr : α)
  /-- `Cxkk`: `Vx :=` a random byte and `kk`. -/
  | random (x kk : α)
  /-- `Dxyn`: draw `n` rows from `I` at `(Vx, Vy)`. -/
  | draw (x y n : α)
  /-- `Ex9E`: skip the next instruction if key `Vx` is held. -/
  | skipIfKey (x : α)
  /-- `ExA1`: skip the next instruction unless key `Vx` is held. -/
  | skipUnlessKey (x : α)
  /-- `Fx07`: `Vx :=` the delay timer. -/
  | readDelay (x : α)
  /-- `Fx0A`: wait for a key and put it into `Vx`. -/
  | waitKey (x : α)
  /-- `Fx15`: the delay timer `:= Vx`. -/
  | setDelay (x : α)
  /-- `Fx18`: the sound timer `:= Vx`. -/
  | setSound (x : α)
  /-- `Fx1E`: `I := I + Vx`. -/
  | addIndex (x : α)
  /-- `Fx29`: `I :=` the address of the glyph of digit `Vx`. -/
  | glyph (x : α)
  /-- `Fx33`: the decimal digits of `Vx` to `I`, `I + 1`, `I + 2`. -/
  | storeDecimal (x : α)
  /-- `Fx55`: `V0` to `Vx` to memory from `I` on. -/
  | storeRegisters (x : α)
  /-- `Fx65`: `V0` to `Vx` from memory from `I` on. -/
  | loadRegisters (x : α)
deriving DecidableEq, Repr

namespace Instruction

/-- The instruction of the same form with other operands. -/
def map {α β : Type} (f : α → β) : Instruction α → Instruction β
  | clear => clear
  | ret => ret
  | jump addr => jump (f addr)
  | call addr => call (f addr)
  | skipIfImm x kk => skipIfImm (f x) (f kk)
  | skipUnlessImm x kk => skipUnlessImm (f x) (f kk)
  | skipIfReg x y => skipIfReg (f x) (f y)
  | setImm x kk => setImm (f x) (f kk)
  | addImm x kk => addImm (f x) (f kk)
  | copy x y => copy (f x) (f y)
  | or x y => or (f x) (f y)
  | and x y => and (f x) (f y)
  | xor x y => xor (f x) (f y)
  | add x y => add (f x) (f y)
  | sub x y => sub (f x) (f y)
  | shiftRight x y => shiftRight (f x) (f y)
  | subFrom x y => subFrom (f x) (f y)
  | shiftLeft x y => shiftLeft (f x) (f y)
  | skipUnlessReg x y => skipUnlessReg (f x) (f y)
  | setIndex addr => setIndex (f addr)
  | jumpOffset addr => jumpOffset (f addr)
  | random x kk => random (f x) (f kk)
  | draw x y n => draw (f x) (f y) (f n)
  | skipIfKey x => skipIfKey (f x)
  | skipUnlessKey x => skipUnlessKey (f x)
  | readDelay x => readDelay (f x)
  | waitKey x => waitKey (f x)
  | setDelay x => setDelay (f x)
  | setSound x => setSound (f x)
  | addIndex x => addIndex (f x)
  | glyph x => glyph (f x)
  | storeDecimal x => storeDecimal (f x)
  | storeRegisters x => storeRegisters (f x)
  | loadRegisters x => loadRegisters (f x)

/-- The instruction has no operands, so that its word is a single one. -/
def isFixed {α : Type} : Instruction α → Bool
  | clear | ret => true
  | _ => false

/-- The operands fit their fields: registers and heights in 4 bits, constants in 8 and addresses
in 12. -/
def InRange : Instruction Int → Prop
  | clear | ret => True
  | jump addr | call addr | setIndex addr | jumpOffset addr => 0 ≤ addr ∧ addr < 0x1000
  | skipIfImm x kk | skipUnlessImm x kk | setImm x kk | addImm x kk | random x kk =>
    (0 ≤ x ∧ x < 16) ∧ 0 ≤ kk ∧ kk < 0x100
  | skipIfReg x y | skipUnlessReg x y | copy x y | or x y | and x y | xor x y | add x y | sub x y
  | shiftRight x y | subFrom x y | shiftLeft x y => (0 ≤ x ∧ x < 16) ∧ 0 ≤ y ∧ y < 16
  | draw x y n => (0 ≤ x ∧ x < 16) ∧ (0 ≤ y ∧ y < 16) ∧ 0 ≤ n ∧ n < 16
  | skipIfKey x | skipUnlessKey x | readDelay x | waitKey x | setDelay x | setSound x | addIndex x
  | glyph x | storeDecimal x | storeRegisters x | loadRegisters x => 0 ≤ x ∧ x < 16

instance (ins : Instruction Int) : Decidable ins.InRange := by
  cases ins <;> unfold InRange <;> infer_instance

/-! ### Laws -/

theorem map_map {α β γ : Type} (f : α → β) (g : β → γ) (ins : Instruction α) :
    (ins.map f).map g = ins.map (g ∘ f) := by
  cases ins <;> rfl

@[simp] theorem map_id {α : Type} (ins : Instruction α) : ins.map id = ins := by
  cases ins <;> rfl

/-- No two instructions with integer operands become the same instruction with numbers. -/
theorem map_ofInt_injective {ins other : Instruction Int}
    (h : ins.map Number.ofInt = other.map Number.ofInt) : ins = other := by
  have hback (i : Instruction Int) : (i.map Number.ofInt).map Number.truncate = i := by
    rw [map_map, show Number.truncate ∘ Number.ofInt = id from
      funext fun n => Number.truncate_ofInt n, map_id]
  rw [← hback ins, h, hback]

end Instruction

end Chip8
