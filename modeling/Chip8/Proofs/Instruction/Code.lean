import Chip8.Instruction.Code
import Mathlib.Tactic.SplitIfs

/-!
# Decoding inverts encoding

A word is put together from its fields (`pack_fields`, `packByte_fields`, `address_fields`), and
the fields of a word that was put together are the ones it was made of (`kind_pack` and its
companions).  So an instruction whose operands fit is the one that its word denotes
(`decode?_encode`), and a word that denotes an instruction is the word of that instruction, whose
operands fit (`encode_of_decode?`).  Hence a 16-bit word denotes the instructions that it encodes
(`decode?_eq_some_iff`), of which there is at most one (`encode_injective`).

A word of any size and sign has the fields of its low 16 bits and denotes what these denote
(`decode?_word`), except in family 0, whose two words are met exactly.  So decoding is the inverse
of encoding on all integers but the wide spellings of these two words
(`decode_inverts_encode`).
-/

namespace Chip8.Instruction

open Opcode

/-! ### Words from fields -/

theorem pack_fields (op : Int) : pack (kind op) (Opcode.x op) (y op) (n op) = word op := by
  unfold pack kind Opcode.x y n word
  omega

theorem packByte_fields (op : Int) : packByte (kind op) (Opcode.x op) (nn op) = word op := by
  unfold packByte kind Opcode.x nn word
  omega

theorem address_fields (op : Int) : kind op * 0x1000 + nnn op = word op := by
  unfold kind nnn word
  omega

theorem x_range (op : Int) : 0 ≤ Opcode.x op ∧ Opcode.x op < 16 := by
  unfold Opcode.x
  omega

theorem y_range (op : Int) : 0 ≤ y op ∧ y op < 16 := by
  unfold y
  omega

theorem n_range (op : Int) : 0 ≤ n op ∧ n op < 16 := by
  unfold n
  omega

theorem nn_range (op : Int) : 0 ≤ nn op ∧ nn op < 0x100 := by
  unfold nn
  omega

theorem nnn_range (op : Int) : 0 ≤ nnn op ∧ nnn op < 0x1000 := by
  unfold nnn
  omega

/-! ### Fields from words -/

section Fields

variable {k x y n kk : Int}

theorem kind_pack (hk : 0 ≤ k ∧ k < 16) (hx : 0 ≤ x ∧ x < 16) (hy : 0 ≤ y ∧ y < 16)
    (hn : 0 ≤ n ∧ n < 16) : kind (pack k x y n) = k := by
  unfold kind pack
  omega

theorem x_pack (hx : 0 ≤ x ∧ x < 16) (hy : 0 ≤ y ∧ y < 16) (hn : 0 ≤ n ∧ n < 16) :
    Opcode.x (pack k x y n) = x := by
  unfold Opcode.x pack
  omega

theorem y_pack (hy : 0 ≤ y ∧ y < 16) (hn : 0 ≤ n ∧ n < 16) : Opcode.y (pack k x y n) = y := by
  unfold Opcode.y pack
  omega

theorem n_pack (hn : 0 ≤ n ∧ n < 16) : Opcode.n (pack k x y n) = n := by
  unfold Opcode.n pack
  omega

theorem kind_packByte (hk : 0 ≤ k ∧ k < 16) (hx : 0 ≤ x ∧ x < 16) (hkk : 0 ≤ kk ∧ kk < 0x100) :
    kind (packByte k x kk) = k := by
  unfold kind packByte
  omega

theorem x_packByte (hx : 0 ≤ x ∧ x < 16) (hkk : 0 ≤ kk ∧ kk < 0x100) :
    Opcode.x (packByte k x kk) = x := by
  unfold Opcode.x packByte
  omega

theorem nn_packByte (hkk : 0 ≤ kk ∧ kk < 0x100) : nn (packByte k x kk) = kk := by
  unfold nn packByte
  omega

theorem kind_base_add {base addr : Int} (hbase : base % 0x1000 = 0)
    (haddr : 0 ≤ addr ∧ addr < 0x1000) : kind (base + addr) = base / 0x1000 % 16 := by
  unfold kind
  omega

theorem nnn_base_add {base addr : Int} (hbase : base % 0x1000 = 0)
    (haddr : 0 ≤ addr ∧ addr < 0x1000) : nnn (base + addr) = addr := by
  unfold nnn
  omega

end Fields

/-! ### From a word to its instruction -/

/-- The two words of family 0 are met exactly. -/
theorem encode_of_decodeSystem? {op : Int} {ins : Instruction Int}
    (h : decodeSystem? op = some ins) : ins.InRange ∧ ins.encode = op := by
  unfold decodeSystem? at h
  split_ifs at h with hclear hret
  · cases h
    exact ⟨trivial, hclear.symm⟩
  · cases h
    exact ⟨trivial, hret.symm⟩

theorem encode_of_decodeArithmetic? {op : Int} {ins : Instruction Int} (hkind : kind op = 0x8)
    (h : decodeArithmetic? op = some ins) : ins.InRange ∧ ins.encode = word op := by
  rw [← pack_fields, hkind]
  have hn := n_range op
  unfold decodeArithmetic? at h
  split at h <;> cases h <;> refine ⟨⟨x_range op, y_range op⟩, ?_⟩ <;> rw [encode] <;> congr 1 <;>
    omega

theorem encode_of_decodeKey? {op : Int} {ins : Instruction Int} (hkind : kind op = 0xE)
    (h : decodeKey? op = some ins) : ins.InRange ∧ ins.encode = word op := by
  rw [← packByte_fields, hkind]
  have hnn := nn_range op
  unfold decodeKey? at h
  split at h <;> cases h <;> refine ⟨x_range op, ?_⟩ <;> rw [encode] <;> congr 1 <;> omega

theorem encode_of_decodeTransfer? {op : Int} {ins : Instruction Int} (hkind : kind op = 0xF)
    (h : decodeTransfer? op = some ins) : ins.InRange ∧ ins.encode = word op := by
  rw [← packByte_fields, hkind]
  have hnn := nn_range op
  unfold decodeTransfer? at h
  split at h <;> cases h <;> refine ⟨x_range op, ?_⟩ <;> rw [encode] <;> congr 1 <;> omega

/-- The instruction that a word denotes has operands that fit, and that word modulo `2 ^ 16`. -/
theorem encode_of_decode? {op : Int} {ins : Instruction Int} (h : decode? op = some ins) :
    ins.InRange ∧ ins.encode = word op := by
  have hkind : 0 ≤ kind op ∧ kind op < 16 := by unfold kind; omega
  have hx := x_range op
  have hy := y_range op
  have hn := n_range op
  have hnn := nn_range op
  have hnnn := nnn_range op
  unfold decode? at h
  split at h
  case h_1 =>
    obtain ⟨hrange, hop⟩ := encode_of_decodeSystem? h
    refine ⟨hrange, ?_⟩
    -- a word of family 0 without operands fits 16 bits
    unfold decodeSystem? at h
    unfold word
    split_ifs at h <;> omega
  case h_9 => exact encode_of_decodeArithmetic? (by omega) h
  case h_15 => exact encode_of_decodeKey? (by omega) h
  case h_16 => exact encode_of_decodeTransfer? (by omega) h
  -- jumps, calls and the index
  case h_2 | h_3 | h_11 | h_12 =>
    cases h
    refine ⟨hnnn, ?_⟩
    rw [encode, ← address_fields]
    omega
  -- a register and a constant
  case h_4 | h_5 | h_7 | h_8 | h_13 =>
    cases h
    refine ⟨⟨hx, hnn⟩, ?_⟩
    rw [encode, ← packByte_fields]
    congr 1
    omega
  -- two registers, with an empty low nibble
  case h_6 | h_10 =>
    split_ifs at h with hzero
    cases h
    refine ⟨⟨hx, hy⟩, ?_⟩
    rw [encode, ← pack_fields, hzero]
    congr 1
    omega
  case h_14 =>
    cases h
    refine ⟨⟨hx, hy, hn⟩, ?_⟩
    rw [encode, ← pack_fields]
    congr 1
    omega
  case h_17 => cases h

/-! ### From an instruction to its word -/

/-- The word of an instruction whose operands fit denotes that instruction. -/
theorem decode?_encode {ins : Instruction Int} (h : ins.InRange) :
    decode? ins.encode = some ins := by
  cases ins with
  | clear => rfl
  | ret => rfl
  | jump _ | call _ | setIndex _ | jumpOffset _ =>
    simp only [InRange] at h
    simp [encode, decode?, kind_base_add, nnn_base_add, h]
  | skipIfImm _ _ | skipUnlessImm _ _ | setImm _ _ | addImm _ _ | random _ _ =>
    simp only [InRange] at h
    simp [encode, decode?, kind_packByte, x_packByte, nn_packByte, h]
  | skipIfReg _ _ | skipUnlessReg _ _ | draw _ _ _ =>
    simp only [InRange] at h
    simp [encode, decode?, kind_pack, x_pack, y_pack, n_pack, h]
  | copy _ _ | or _ _ | and _ _ | xor _ _ | add _ _ | sub _ _ | shiftRight _ _ | subFrom _ _
  | shiftLeft _ _ =>
    simp only [InRange] at h
    simp [encode, decode?, decodeArithmetic?, kind_pack, x_pack, y_pack, n_pack, h]
  | skipIfKey _ | skipUnlessKey _ =>
    simp only [InRange] at h
    simp [encode, decode?, decodeKey?, kind_packByte, x_packByte, nn_packByte, h]
  | readDelay _ | waitKey _ | setDelay _ | setSound _ | addIndex _ | glyph _ | storeDecimal _
  | storeRegisters _ | loadRegisters _ =>
    simp only [InRange] at h
    simp [encode, decode?, decodeTransfer?, kind_packByte, x_packByte, nn_packByte, h]

/-- No two instructions whose operands fit have the same word. -/
theorem encode_injective {ins other : Instruction Int} (h : ins.InRange) (hother : other.InRange)
    (heq : ins.encode = other.encode) : ins = other := by
  have hdecode := decode?_encode h
  rw [heq, decode?_encode hother] at hdecode
  exact (Option.some.inj hdecode).symm

/-- A 16-bit word denotes the instruction whose word it is. -/
theorem decode?_eq_some_iff {op : Int} (hop : 0 ≤ op ∧ op < 0x10000) (ins : Instruction Int) :
    decode? op = some ins ↔ ins.InRange ∧ ins.encode = op := by
  constructor
  · intro h
    obtain ⟨hrange, hword⟩ := encode_of_decode? h
    refine ⟨hrange, ?_⟩
    rw [hword, word]
    omega
  · rintro ⟨hrange, rfl⟩
    exact decode?_encode hrange

/-! ### Words of any size and sign -/

theorem word_range (op : Int) : 0 ≤ word op ∧ word op < 0x10000 := by
  unfold word
  omega

theorem kind_word (op : Int) : kind (word op) = kind op := by
  unfold kind word
  omega

theorem x_word (op : Int) : Opcode.x (word op) = Opcode.x op := by
  unfold Opcode.x word
  omega

theorem y_word (op : Int) : y (word op) = y op := by
  unfold y word
  omega

theorem n_word (op : Int) : n (word op) = n op := by
  unfold n word
  omega

theorem nn_word (op : Int) : nn (word op) = nn op := by
  unfold nn word
  omega

theorem nnn_word (op : Int) : nnn (word op) = nnn op := by
  unfold nnn word
  omega

/-- Outside family 0, a word denotes what its low 16 bits denote. -/
theorem decode?_word {op : Int} (h : kind op ≠ 0) : decode? (word op) = decode? op := by
  have hkind : (kind op).toNat ≠ 0 := by
    have hrange : 0 ≤ kind op := by unfold kind; omega
    omega
  unfold decode?
  rw [kind_word]
  split
  case h_1 hzero => exact absurd hzero hkind
  all_goals simp only [decodeArithmetic?, decodeKey?, decodeTransfer?, x_word, y_word, n_word,
    nn_word, nnn_word]

/-- A word denotes nothing if its low 16 bits are no word of an instruction, or if they are one of
the two words without operands and other bits are set. -/
theorem decode?_eq_none_iff (op : Int) :
    decode? op = none ↔
      (∀ ins : Instruction Int, ins.InRange → ins.encode ≠ word op) ∨
        ((word op = 0x00E0 ∨ word op = 0x00EE) ∧ op ≠ word op) := by
  have hnone : decode? (word op) = none ↔
      ∀ ins : Instruction Int, ins.InRange → ins.encode ≠ word op := by
    simp only [Option.eq_none_iff_forall_ne_some, ne_eq, decode?_eq_some_iff (word_range op),
      not_and]
  rw [← hnone]
  by_cases hkind : kind op = 0
  · -- in family 0 both words are compared as they are
    have hsystem {w : Int} (hw : kind w = 0) :
        decode? w = none ↔ ¬ (w = 0x00E0 ∨ w = 0x00EE) := by
      rw [decode?, hw]
      simp only [Int.toNat_zero, decodeSystem?]
      split_ifs with hclear hret <;> simp [*]
    rw [hsystem hkind, hsystem (by rw [kind_word, hkind])]
    unfold word
    omega
  · have hword : ¬ (word op = 0x00E0 ∨ word op = 0x00EE) := by
      unfold kind at hkind
      unfold word
      omega
    rw [decode?_word hkind]
    simp [hword]

theorem decode_eq_ok_iff {op : Int} {ins : Instruction Int} :
    decode op = .ok ins ↔ decode? op = some ins := by
  rw [decode]
  cases decode? op <;> simp

theorem decode_eq_error_iff {op : Int} {f : Fault} :
    decode op = .error f ↔ decode? op = none ∧ f = unknownOpcode op := by
  rw [decode]
  cases decode? op <;> simp [eq_comm]

/-- A host gets the instruction of an integer, however it is spelled. -/
theorem ofNumber_of_toInt? {op : Number} {k : Int} (h : op.toInt? = some k) :
    ofNumber op = decode k := by
  have htruncate : op.truncate = k := by
    rw [Number.truncate, Number.value_of_toInt? h, Rat.num_intCast, Rat.den_intCast,
      Int.natCast_one, Int.tdiv_one]
  have hall : ofNumber? op = decode? k := by
    rw [ofNumber?, htruncate, h]
    cases decode? k <;> simp [Option.filter]
  rw [ofNumber, hall, htruncate, decode]

/-- Decoding gives back every instruction whose operands fit.  From an integer of any size and
sign it makes the instruction that has the low 16 bits as its word, and fails with these bits
exactly where no instruction has them or where they are one of the two words without operands and
the integer is another. -/
theorem decode_inverts_encode :
    (∀ ins : Instruction Int, ins.InRange → decode ins.encode = .ok ins) ∧
      ∀ op : Int,
        (∀ ins, decode op = .ok ins → ins.InRange ∧ ins.encode = op % 0x10000) ∧
        (∀ f, decode op = .error f →
          f = ⟨.unknownOpcode, "no instruction matches opcode",
            { opcode? := some (.ofInt (op % 0x10000)) }⟩) ∧
        ((∃ f, decode op = .error f) ↔
          (∀ ins : Instruction Int, ins.InRange → ins.encode ≠ op % 0x10000) ∨
            ((op % 0x10000 = 0x00E0 ∨ op % 0x10000 = 0x00EE) ∧ op ≠ op % 0x10000)) ∧
        ∀ number : Number, number.toInt? = some op → ofNumber number = decode op := by
  constructor
  · intro ins h
    rw [decode_eq_ok_iff]
    exact decode?_encode h
  · intro op
    refine ⟨?_, ?_, ?_, fun number => ofNumber_of_toInt?⟩
    · intro ins h
      exact encode_of_decode? (decode_eq_ok_iff.1 h)
    · intro f h
      exact (decode_eq_error_iff.1 h).2
    · simp only [decode_eq_error_iff, exists_and_left, exists_eq, and_true]
      exact decode?_eq_none_iff op

/-- A sprite of five rows, and the word that clears the display with one more bit set. -/
theorem decode_encode_draw :
    decode (encode (draw 0xA 0xB 0x5)) = .ok (draw 0xA 0xB 0x5) ∧
      ∃ f, decode 0x100E0 = .error f := by
  refine ⟨decode_inverts_encode.1 _ (by decide), ?_⟩
  exact ((decode_inverts_encode.2 0x100E0).2.2.1).2 (.inr ⟨by decide, by decide⟩)

end Chip8.Instruction
