import Chip8.Instruction.Code

/-!
# Instructions as text

`Instruction.text` writes an instruction in assembly, such as `ADD V3, 0x10`, and `disassemble`
the instruction of a word, or `???` if there is none.  Constants and addresses are in base sixteen
with at least two and three digits, registers are `V` and a digit of base sixteen, and the height
of a sprite is in decimal.
-/

namespace Chip8.Instruction

/-- A number in base sixteen and upper case, with at least the given count of characters. -/
def hexDigits (width : Nat) (v : Number) : List Char :=
  Text.padZeros width (Text.upper v.hex.toList)

/-- A constant with at least the given count of digits. -/
def constant (width : Nat) (v : Number) : List Char := '0' :: 'x' :: hexDigits width v

/-- A register. -/
def register (r : Number) : List Char := 'V' :: hexDigits 1 r

/-- The mnemonic of an instruction. -/
def mnemonic {α : Type} : Instruction α → String
  | clear => "CLS"
  | ret => "RET"
  | jump _ | jumpOffset _ => "JP"
  | call _ => "CALL"
  | skipIfImm _ _ | skipIfReg _ _ => "SE"
  | skipUnlessImm _ _ | skipUnlessReg _ _ => "SNE"
  | setImm _ _ | copy _ _ | setIndex _ | readDelay _ | waitKey _ | setDelay _ | setSound _
  | glyph _ | storeDecimal _ | storeRegisters _ | loadRegisters _ => "LD"
  | addImm _ _ | add _ _ | addIndex _ => "ADD"
  | or _ _ => "OR"
  | and _ _ => "AND"
  | xor _ _ => "XOR"
  | sub _ _ => "SUB"
  | shiftRight _ _ => "SHR"
  | subFrom _ _ => "SUBN"
  | shiftLeft _ _ => "SHL"
  | random _ _ => "RND"
  | draw _ _ _ => "DRW"
  | skipIfKey _ => "SKP"
  | skipUnlessKey _ => "SKNP"

/-- The operands of an instruction as they are written; a shift shows only what it shifts. -/
def operands : Instruction Number → List (List Char)
  | clear | ret => []
  | jump addr | call addr => [constant 3 addr]
  | skipIfImm x kk | skipUnlessImm x kk | setImm x kk | addImm x kk | random x kk =>
    [register x, constant 2 kk]
  | skipIfReg x y | copy x y | or x y | and x y | xor x y | add x y | sub x y | subFrom x y
  | skipUnlessReg x y => [register x, register y]
  | shiftRight x _ | shiftLeft x _ => [register x]
  | setIndex addr => [['I'], constant 3 addr]
  | jumpOffset addr => [['V', '0'], constant 3 addr]
  | draw x y n => [register x, register y, n.decimal.toList]
  | skipIfKey x | skipUnlessKey x => [register x]
  | readDelay x => [register x, ['D', 'T']]
  | waitKey x => [register x, ['K']]
  | setDelay x => [['D', 'T'], register x]
  | setSound x => [['S', 'T'], register x]
  | addIndex x => [['I'], register x]
  | glyph x => [['F'], register x]
  | storeDecimal x => [['B'], register x]
  | storeRegisters x => [['[', 'I', ']'], register x]
  | loadRegisters x => [register x, ['[', 'I', ']']]

/-- The operands after the mnemonic: a space before the first, a comma and a space between two. -/
def operandChars (operands : List (List Char)) : List Char :=
  if operands.isEmpty then [] else ' ' :: [',', ' '].intercalate operands

/-- An instruction in assembly. -/
def text (ins : Instruction Number) : String :=
  String.ofList (ins.mnemonic.toList ++ operandChars ins.operands)

/-- The instruction of a word in assembly. -/
def disassemble (op : Number) : String :=
  match ofNumber? op with
  | some ins => (ins.map .ofInt).text
  | none => "???"

end Chip8.Instruction
