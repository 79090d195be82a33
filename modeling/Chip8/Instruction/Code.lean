import Chip8.Fault
import Chip8.Instruction.Basic

/-!
# Opcode words

`Opcode` cuts a word into its fields, `Instruction.encode` writes an instruction as a word by its
opcode pattern and `Instruction.decode?` finds the instruction that a word denotes.  All three
take integers of any size and sign: a field depends on the word modulo `2 ^ 16` alone, while the
two words without operands, `00E0` and `00EE`, have to be met exactly.

A host may also ask for the instruction of a number (`Instruction.ofNumber`).  The integer part
counts as the word, and a number with a fraction meets no word exactly.
-/

namespace Chip8

/-! ### Fields -/

namespace Opcode

/-- Bits 12 to 15, which select the family. -/
def kind (op : Int) : Int := op / 0x1000 % 16

/-- Bits 8 to 11, a register index. -/
def x (op : Int) : Int := op / 0x100 % 16

/-- Bits 4 to 7, a register index. -/
def y (op : Int) : Int := op / 0x10 % 16

/-- The low 4 bits. -/
def n (op : Int) : Int := op % 16

/-- The low 8 bits. -/
def nn (op : Int) : Int := op % 0x100

/-- The low 12 bits, an address. -/
def nnn (op : Int) : Int := op % 0x1000

/-- The word itself, cut to 16 bits. -/
def word (op : Int) : Int := op % 0x10000

end Opcode

namespace Instruction

/-! ### Encoding -/

/-- A word from its family, two register fields and the low nibble. -/
def pack (kind x y n : Int) : Int := kind * 0x1000 + x * 0x100 + y * 0x10 + n

/-- A word from its family, one register field and the low byte. -/
def packByte (kind x kk : Int) : Int := kind * 0x1000 + x * 0x100 + kk

/-- The word of an instruction by its opcode pattern. -/
def encode : Instruction Int → Int
  | clear => 0x00E0
  | ret => 0x00EE
  | jump addr => 0x1000 + addr
  | call addr => 0x2000 + addr
  | skipIfImm x kk => packByte 0x3 x kk
  | skipUnlessImm x kk => packByte 0x4 x kk
  | skipIfReg x y => pack 0x5 x y 0x0
  | setImm x kk => packByte 0x6 x kk
  | addImm x kk => packByte 0x7 x kk
  | copy x y => pack 0x8 x y 0x0
  | or x y => pack 0x8 x y 0x1
  | and x y => pack 0x8 x y 0x2
  | xor x y => pack 0x8 x y 0x3
  | add x y => pack 0x8 x y 0x4
  | sub x y => pack 0x8 x y 0x5
  | shiftRight x y => pack 0x8 x y 0x6
  | subFrom x y => pack 0x8 x y 0x7
  | shiftLeft x y => pack 0x8 x y 0xE
  | skipUnlessReg x y => pack 0x9 x y 0x0
  | setIndex addr => 0xA000 + addr
  | jumpOffset addr => 0xB000 + addr
  | random x kk => packByte 0xC x kk
  | draw x y n => pack 0xD x y n
  | skipIfKey x => packByte 0xE x 0x9E
  | skipUnlessKey x => packByte 0xE x 0xA1
  | readDelay x => packByte 0xF x 0x07
  | waitKey x => packByte 0xF x 0x0A
  | setDelay x => packByte 0xF x 0x15
  | setSound x => packByte 0xF x 0x18
  | addIndex x => packByte 0xF x 0x1E
  | glyph x => packByte 0xF x 0x29
  | storeDecimal x => packByte 0xF x 0x33
  | storeRegisters x => packByte 0xF x 0x55
  | loadRegisters x => packByte 0xF x 0x65

/-! ### Decoding -/

open Opcode

/-- The instructions of family 0, which have no operands. -/
def decodeSystem? (op : Int) : Option (Instruction Int) :=
  if op = 0x00E0 then some clear
  else if op = 0x00EE then some ret
  else none

/-- The instructions of family 8, selected by the low nibble. -/
def decodeArithmetic? (op : Int) : Option (Instruction Int) :=
  match (n op).toNat with
  | 0x0 => some (copy (x op) (y op))
  | 0x1 => some (or (x op) (y op))
  | 0x2 => some (and (x op) (y op))
  | 0x3 => some (xor (x op) (y op))
  | 0x4 => some (add (x op) (y op))
  | 0x5 => some (sub (x op) (y op))
  | 0x6 => some (shiftRight (x op) (y op))
  | 0x7 => some (subFrom (x op) (y op))
  | 0xE => some (shiftLeft (x op) (y op))
  | _ => none

/-- The instructions of family E, selected by the low byte. -/
def decodeKey? (op : Int) : Option (Instruction Int) :=
  match (nn op).toNat with
  | 0x9E => some (skipIfKey (x op))
  | 0xA1 => some (skipUnlessKey (x op))
  | _ => none

/-- The instructions of family F, selected by the low byte. -/
def decodeTransfer? (op : Int) : Option (Instruction Int) :=
  match (nn op).toNat with
  | 0x07 => some (readDelay (x op))
  | 0x0A => some (waitKey (x op))
  | 0x15 => some (setDelay (x op))
  | 0x18 => some (setSound (x op))
  | 0x1E => some (addIndex (x op))
  | 0x29 => some (glyph (x op))
  | 0x33 => some (storeDecimal (x op))
  | 0x55 => some (storeRegisters (x op))
  | 0x65 => some (loadRegisters (x op))
  | _ => none

/-- The instruction that a word denotes. -/
def decode? (op : Int) : Option (Instruction Int) :=
  match (kind op).toNat with
  | 0x0 => decodeSystem? op
  | 0x1 => some (jump (nnn op))
  | 0x2 => some (call (nnn op))
  | 0x3 => some (skipIfImm (x op) (nn op))
  | 0x4 => some (skipUnlessImm (x op) (nn op))
  | 0x5 => if n op = 0 then some (skipIfReg (x op) (y op)) else none
  | 0x6 => some (setImm (x op) (nn op))
  | 0x7 => some (addImm (x op) (nn op))
  | 0x8 => decodeArithmetic? op
  | 0x9 => if n op = 0 then some (skipUnlessReg (x op) (y op)) else none
  | 0xA => some (setIndex (nnn op))
  | 0xB => some (jumpOffset (nnn op))
  | 0xC => some (random (x op) (nn op))
  | 0xD => some (draw (x op) (y op) (n op))
  | 0xE => decodeKey? op
  | 0xF => decodeTransfer? op
  | _ => none

/-- No instruction has this word. -/
def unknownOpcode (op : Int) : Fault where
  code := .unknownOpcode
  detail := "no instruction matches opcode"
  context := { opcode? := some (.ofInt (word op)) }

/-- The instruction that a word denotes, or the fault that there is none. -/
def decode (op : Int) : Except Fault (Instruction Int) :=
  match decode? op with
  | some ins => .ok ins
  | none => .error (unknownOpcode op)

/-! ### Numbers as words -/

/-- The instruction that a number denotes. -/
def ofNumber? (op : Number) : Option (Instruction Int) :=
  (decode? op.truncate).filter fun ins => !ins.isFixed || op.toInt?.isSome

/-- The instruction that a number denotes, or the fault that there is none. -/
def ofNumber (op : Number) : Except Fault (Instruction Int) :=
  match ofNumber? op with
  | some ins => .ok ins
  | none => .error (unknownOpcode op.truncate)

@[simp] theorem ofNumber?_ofInt (op : Int) : ofNumber? (.ofInt op) = decode? op := by
  cases h : decode? op <;> simp [ofNumber?, h]

@[simp] theorem ofNumber_ofInt (op : Int) : ofNumber (.ofInt op) = decode op := by
  simp [ofNumber, decode]

end Instruction

end Chip8
