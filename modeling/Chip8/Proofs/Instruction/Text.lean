import Chip8.Instruction.Text
import Chip8.Number.Numeral
import Chip8.Proofs.Machine.Table

/-!
# Assembly can be read back

`read?` is an assembler for single instructions: it cuts a line at its blanks, reads every operand
by its first characters (`readOperand`) and finds the instruction by the mnemonic and the kinds of
the operands (`assemble?`).

What it reads from the text of an instruction is that instruction (`read?_text`), except that the
text of a shift does not tell the register that plays no part in it (`shown`).  The operands need
not fit their fields for this; they may be as large as binary64 numbers count exactly.  So texts
are the same for instructions that differ in that register at most (`EqualButForShift`), and for no
others (`text_unambiguous`), and the text of an instruction is never the one for words without an
instruction (`disassemble_eq_unknown_iff`).
-/

namespace Chip8.Instruction

open Numeral (digitsValue isDigit)

/-! ### An assembler -/

/-- An operand by its kind. -/
inductive Operand where
  | register (k : Nat)
  | constant (k : Nat)
  | name (cs : List Char)
deriving DecidableEq

/-- Registers start with `V` and constants with `0x`; anything else is a name. -/
def readOperand : List Char → Operand
  | 'V' :: digits => .register (digitsValue 16 digits)
  | '0' :: 'x' :: digits => .constant (digitsValue 16 digits)
  | cs => .name cs

/-- The instruction with a mnemonic and operands. -/
def assemble? (mnemonic : String) : List Operand → Option (Instruction Nat)
  | [] => match mnemonic with
    | "CLS" => some clear
    | "RET" => some ret
    | _ => none
  | [.constant addr] => match mnemonic with
    | "JP" => some (jump addr)
    | "CALL" => some (call addr)
    | _ => none
  | [.register x] => match mnemonic with
    | "SHR" => some (shiftRight x 0)
    | "SHL" => some (shiftLeft x 0)
    | "SKP" => some (skipIfKey x)
    | "SKNP" => some (skipUnlessKey x)
    | _ => none
  | [.register x, .constant k] => match mnemonic with
    | "JP" => if x = 0 then some (jumpOffset k) else none
    | "SE" => some (skipIfImm x k)
    | "SNE" => some (skipUnlessImm x k)
    | "LD" => some (setImm x k)
    | "ADD" => some (addImm x k)
    | "RND" => some (random x k)
    | _ => none
  | [.register x, .register y] => match mnemonic with
    | "SE" => some (skipIfReg x y)
    | "SNE" => some (skipUnlessReg x y)
    | "LD" => some (copy x y)
    | "OR" => some (or x y)
    | "AND" => some (and x y)
    | "XOR" => some (xor x y)
    | "ADD" => some (add x y)
    | "SUB" => some (sub x y)
    | "SUBN" => some (subFrom x y)
    | _ => none
  | [.register x, .name cs] => match mnemonic, cs with
    | "LD", ['D', 'T'] => some (readDelay x)
    | "LD", ['K'] => some (waitKey x)
    | "LD", ['[', 'I', ']'] => some (loadRegisters x)
    | _, _ => none
  | [.name cs, .register x] => match mnemonic, cs with
    | "LD", ['D', 'T'] => some (setDelay x)
    | "LD", ['S', 'T'] => some (setSound x)
    | "ADD", ['I'] => some (addIndex x)
    | "LD", ['F'] => some (glyph x)
    | "LD", ['B'] => some (storeDecimal x)
    | "LD", ['[', 'I', ']'] => some (storeRegisters x)
    | _, _ => none
  | [.name cs, .constant addr] => match mnemonic, cs with
    | "LD", ['I'] => some (setIndex addr)
    | _, _ => none
  | [.register x, .register y, .name cs] => match mnemonic with
    | "DRW" => some (draw x y (digitsValue 10 cs))
    | _ => none
  | _ => none

/-- The instruction of a line of assembly. -/
def read? (line : String) : Option (Instruction Nat) :=
  match (line.toList.filter (· != ',')).splitOn ' ' with
  | [] => none
  | mnemonic :: operands => assemble? (String.ofList mnemonic) (operands.map readOperand)

/-! ### What a text tells -/

/-- The instruction as far as its text tells. -/
def shown : Instruction Nat → Instruction Nat
  | shiftRight x _ => shiftRight x 0
  | shiftLeft x _ => shiftLeft x 0
  | ins => ins

/-- The instructions are equal, or the same shift of the same register. -/
def EqualButForShift (ins other : Instruction Nat) : Prop :=
  ins = other ∨ (∃ x y y', ins = shiftRight x y ∧ other = shiftRight x y') ∨
    ∃ x y y', ins = shiftLeft x y ∧ other = shiftLeft x y'

theorem shown_eq_shown_iff {ins other : Instruction Nat} :
    ins.shown = other.shown ↔ ins.EqualButForShift other := by
  constructor
  · intro h
    unfold EqualButForShift
    cases ins
    case shiftRight x y =>
      cases other <;> cases h
      exact .inr (.inl ⟨_, _, _, rfl, rfl⟩)
    case shiftLeft x y =>
      cases other <;> cases h
      exact .inr (.inr ⟨_, _, _, rfl, rfl⟩)
    all_goals
      cases other <;> cases h
      exact .inl rfl
  · rintro (rfl | ⟨x, y, y', rfl, rfl⟩ | ⟨x, y, y', rfl, rfl⟩) <;> rfl

/-! ### Operands of any size -/

/-- The operands of an instruction. -/
def fields {α : Type} : Instruction α → List α
  | clear | ret => []
  | jump addr | call addr | setIndex addr | jumpOffset addr => [addr]
  | skipIfImm x kk | skipUnlessImm x kk | setImm x kk | addImm x kk | random x kk => [x, kk]
  | skipIfReg x y | skipUnlessReg x y | copy x y | or x y | and x y | xor x y | add x y | sub x y
  | shiftRight x y | subFrom x y | shiftLeft x y => [x, y]
  | draw x y n => [x, y, n]
  | skipIfKey x | skipUnlessKey x | readDelay x | waitKey x | setDelay x | setSound x | addIndex x
  | glyph x | storeDecimal x | storeRegisters x | loadRegisters x => [x]

/-- The operands of an instruction are counted exactly by binary64 numbers. -/
def Exact (ins : Instruction Nat) : Prop := ∀ k ∈ ins.fields, k < 0x20000000000000

instance (ins : Instruction Nat) : Decidable ins.Exact :=
  inferInstanceAs (Decidable (∀ k ∈ ins.fields, k < 0x20000000000000))

theorem exact_of_inRange {ins : Instruction Nat} (h : (ins.map Nat.cast).InRange) : ins.Exact := by
  intro k hk
  cases ins <;> simp only [map, InRange] at h <;>
    simp only [fields, List.mem_cons, List.not_mem_nil, or_false] at hk <;>
    omega

/-! ### Numbers in operands -/

theorem isDigit_of_mem_hexDigits (width n : Nat) :
    ∀ c ∈ hexDigits width (.ofInt n), isDigit 16 c = true := by
  intro c hc
  rw [hexDigits, Number.hex_ofInt_natCast, Text.padZeros, List.mem_append] at hc
  rcases hc with hzero | hdigit
  · obtain rfl := List.eq_of_mem_replicate hzero
    rfl
  · obtain ⟨d, hd, rfl⟩ := List.mem_map.1 hdigit
    rw [isDigit, Numeral.digitValue?_toUpper]
    exact Numeral.isDigit_of_mem_toDigits (by decide) (by decide) n d hd

theorem digitsValue_hexDigits (width n : Nat) :
    digitsValue 16 (hexDigits width (.ofInt n)) = n := by
  rw [hexDigits, Numeral.digitsValue_padZeros, Numeral.digitsValue_upper, Number.hex_ofInt_natCast,
    Numeral.digitsValue_toDigits (by decide) (by decide)]

@[simp] theorem readOperand_register (n : Nat) :
    readOperand (register (.ofInt n)) = .register n :=
  congrArg Operand.register (digitsValue_hexDigits 1 n)

@[simp] theorem readOperand_constant (width n : Nat) :
    readOperand (constant width (.ofInt n)) = .constant n :=
  congrArg Operand.constant (digitsValue_hexDigits width n)

/-- A height is neither a register nor a constant. -/
theorem readOperand_toDigits (n : Nat) :
    readOperand (Nat.toDigits 10 n) = .name (Nat.toDigits 10 n) := by
  have hdigits := Numeral.isDigit_of_mem_toDigits (show 1 < 10 by decide) (by decide) n
  generalize Nat.toDigits 10 n = cs at hdigits
  unfold readOperand
  split
  next digits => exact absurd (hdigits 'V' (by simp)) (by decide)
  next digits => exact absurd (hdigits 'x' (by simp)) (by decide)
  next => rfl

/-! ### Cutting a line -/

/-- The text contains neither a comma nor a blank. -/
def IsWord (cs : List Char) : Prop := ',' ∉ cs ∧ ' ' ∉ cs

instance (cs : List Char) : Decidable (IsWord cs) := inferInstanceAs (Decidable (_ ∧ _))

theorem isWord_of_isDigit {base : Nat} {cs : List Char} (h : ∀ c ∈ cs, isDigit base c = true) :
    IsWord cs := by
  constructor
  · intro hcomma
    cases h ',' hcomma
  · intro hblank
    cases h ' ' hblank

theorem isWord_cons {c : Char} {cs : List Char} (hc : c ≠ ',' ∧ c ≠ ' ') (h : IsWord cs) :
    IsWord (c :: cs) :=
  ⟨List.not_mem_cons_of_ne_of_not_mem hc.1.symm h.1,
    List.not_mem_cons_of_ne_of_not_mem hc.2.symm h.2⟩

theorem isWord_register (n : Nat) : IsWord (register (.ofInt n)) :=
  isWord_cons (by decide) (isWord_of_isDigit (isDigit_of_mem_hexDigits 1 n))

theorem isWord_constant (width n : Nat) : IsWord (constant width (.ofInt n)) :=
  isWord_cons (by decide)
    (isWord_cons (by decide) (isWord_of_isDigit (isDigit_of_mem_hexDigits width n)))

theorem isWord_decimal {n : Nat} (h : n < 0x20000000000000) :
    IsWord (Number.ofInt n).decimal.toList := by
  rw [Number.decimal_ofInt_natCast h]
  exact isWord_of_isDigit (Numeral.isDigit_of_mem_toDigits (by decide) (by decide) n)

theorem isWord_mnemonic (ins : Instruction Number) : IsWord ins.mnemonic.toList := by
  cases ins <;> simp only [mnemonic] <;> decide

theorem isWord_operands {ins : Instruction Nat} (h : ins.Exact) :
    ∀ cs ∈ operands ((ins.map Nat.cast).map .ofInt), IsWord cs := by
  cases ins
  case draw x y n =>
    have hn := h n (by simp [fields])
    simp [map, operands, isWord_register, isWord_decimal hn]
  -- names are words by decision
  all_goals simp +decide [map, operands, isWord_register, isWord_constant]

/-- Without its commas, a line is its words with a blank between two. -/
theorem filter_line {mnemonic : List Char} (hmnemonic : IsWord mnemonic)
    {operands : List (List Char)} (h : ∀ cs ∈ operands, IsWord cs) :
    (mnemonic ++ operandChars operands).filter (· != ',') =
      [' '].intercalate (mnemonic :: operands) := by
  have hword {cs : List Char} (hcs : IsWord cs) : cs.filter (· != ',') = cs :=
    List.filter_eq_self.2 fun c hc => bne_iff_ne.2 fun hcomma => hcs.1 (hcomma ▸ hc)
  have hoperands : ([',', ' '].intercalate operands).filter (· != ',') =
      [' '].intercalate operands := by
    induction operands with
    | nil => rfl
    | cons first rest ih =>
      rw [List.forall_mem_cons] at h
      cases rest with
      | nil => simp [hword h.1]
      | cons second rest =>
        rw [List.intercalate_cons_cons, List.intercalate_cons_cons, List.filter_append,
          List.filter_append, hword h.1, ih h.2]
        rfl
  rw [List.filter_append, hword hmnemonic]
  cases operands with
  | nil => simp [operandChars]
  | cons first rest =>
    rw [List.intercalate_cons_cons, ← hoperands]
    simp [operandChars]

/-- A line is cut into its words. -/
theorem splitOn_line {mnemonic : List Char} (hmnemonic : IsWord mnemonic)
    {operands : List (List Char)} (h : ∀ cs ∈ operands, IsWord cs) :
    ((mnemonic ++ operandChars operands).filter (· != ',')).splitOn ' ' = mnemonic :: operands := by
  rw [filter_line hmnemonic h]
  refine List.splitOn_intercalate ' ' ?_ (List.cons_ne_nil _ _)
  intro cs hcs
  rcases List.mem_cons.1 hcs with rfl | hmem
  · exact hmnemonic.2
  · exact (h cs hmem).2

/-! ### Reading back -/

/-- Mnemonic and operands tell the instruction. -/
theorem assemble?_operands {ins : Instruction Nat} (h : ins.Exact) :
    assemble? ((ins.map Nat.cast).map Number.ofInt).mnemonic
      ((operands ((ins.map Nat.cast).map .ofInt)).map readOperand) = some ins.shown := by
  cases ins
  case draw x y n =>
    have hn := Number.decimal_ofInt_natCast (h n (by simp [fields]))
    simp only [map, operands, List.map_cons, List.map_nil, readOperand_register, hn,
      readOperand_toDigits]
    show some (draw x y (digitsValue 10 (Nat.toDigits 10 n))) = _
    rw [Numeral.digitsValue_toDigits (by decide) (by decide)]
    rfl
  all_goals
    simp only [map, operands, List.map_cons, List.map_nil, readOperand_register,
      readOperand_constant]
    rfl

/-- The text of an instruction is read as that instruction, as far as it tells. -/
theorem read?_text {ins : Instruction Nat} (h : ins.Exact) :
    read? ((ins.map Nat.cast).map Number.ofInt).text = some ins.shown := by
  rw [read?, text, String.toList_ofList, splitOn_line (isWord_mnemonic _) (isWord_operands h)]
  simp only [String.ofList_toList]
  exact assemble?_operands h

/-- A text tells all that is shown. -/
theorem text_map_shown (ins : Instruction Nat) :
    ((ins.shown.map Nat.cast).map Number.ofInt).text =
      ((ins.map Nat.cast).map Number.ofInt).text := by
  cases ins <;> rfl

theorem text_eq_text_iff {ins other : Instruction Nat} (h : ins.Exact) (hother : other.Exact) :
    ((ins.map Nat.cast).map Number.ofInt).text = ((other.map Nat.cast).map Number.ofInt).text ↔
      ins.shown = other.shown := by
  constructor
  · intro htext
    have hread := read?_text h
    rw [htext, read?_text hother, Option.some.injEq] at hread
    exact hread.symm
  · intro hshown
    rw [← text_map_shown ins, hshown, text_map_shown]

/-- The text of an instruction is not the one for words without an instruction. -/
theorem text_ne_unknown {ins : Instruction Nat} (h : ins.Exact) :
    ((ins.map Nat.cast).map Number.ofInt).text ≠ "???" := by
  intro htext
  have hread := read?_text h
  rw [htext] at hread
  cases hread

/-! ### Words -/

theorem disassemble_of_matches {ins : Instruction Nat} {word : Nat} (h : ins.Matches word) :
    disassemble (.ofInt word) = ((ins.map Nat.cast).map Number.ofInt).text := by
  rw [disassemble, ofNumber?_ofInt, decode?_of_matches h]

theorem disassemble_eq_unknown_iff {word : Nat} (hword : word < 0x10000) :
    disassemble (.ofInt word) = "???" ↔ decode? word = none := by
  rcases decode?_eq_none_or_matches hword with ⟨hdecode, -⟩ | ⟨ins, hins⟩
  · rw [disassemble, ofNumber?_ofInt, hdecode]
    exact iff_of_true rfl rfl
  · rw [disassemble_of_matches hins, decode?_of_matches hins]
    exact iff_of_false (text_ne_unknown (exact_of_inRange hins.1)) (Option.some_ne_none _)

/-- Words that are shown with the same text denote the same instruction as far as that tells. -/
theorem shown_eq_of_disassemble_eq {ins other : Instruction Nat} {word word' : Nat}
    (h : ins.Matches word) (hother : other.Matches word')
    (hsame : disassemble (.ofInt word) = disassemble (.ofInt word')) :
    ins.shown = other.shown := by
  rw [disassemble_of_matches h, disassemble_of_matches hother] at hsame
  exact (text_eq_text_iff (exact_of_inRange h.1) (exact_of_inRange hother.1)).1 hsame

/-- The words shift the same register to the same side. -/
def SameShift (word word' : Nat) : Prop :=
  ∃ n, (n = 0x6 ∨ n = 0xE) ∧ ∃ x y y' : Fin 16,
    (word : Int) = pack 0x8 x.val y.val n ∧ (word' : Int) = pack 0x8 x.val y'.val n

theorem sameShift_of_equalButForShift {ins other : Instruction Nat} {word word' : Nat}
    (h : ins.Matches word) (hother : other.Matches word') (hsame : ins.EqualButForShift other) :
    word = word' ∨ SameShift word word' := by
  obtain ⟨hrange, hword⟩ := h
  obtain ⟨hrange', hword'⟩ := hother
  rcases hsame with rfl | ⟨x, y, y', rfl, rfl⟩ | ⟨x, y, y', rfl, rfl⟩
  · exact .inl (Int.ofNat.inj (hword.symm.trans hword'))
  · simp only [map, InRange] at hrange hrange'
    exact .inr ⟨0x6, .inl rfl, ⟨x, by omega⟩, ⟨y, by omega⟩, ⟨y', by omega⟩, hword.symm,
      hword'.symm⟩
  · simp only [map, InRange] at hrange hrange'
    exact .inr ⟨0xE, .inr rfl, ⟨x, by omega⟩, ⟨y, by omega⟩, ⟨y', by omega⟩, hword.symm,
      hword'.symm⟩

theorem disassemble_eq_of_sameShift {word word' : Nat} (h : SameShift word word') :
    disassemble (.ofInt word) = disassemble (.ofInt word') := by
  have hfits (x y : Fin 16) : (0 ≤ (x.val : Int) ∧ (x.val : Int) < 16) ∧
      0 ≤ (y.val : Int) ∧ (y.val : Int) < 16 := by
    omega
  obtain ⟨n, rfl | rfl, x, y, y', hword, hword'⟩ := h
  · have hins : (shiftRight x.val y.val).Matches word := ⟨hfits x y, hword.symm⟩
    have hother : (shiftRight x.val y'.val).Matches word' := ⟨hfits x y', hword'.symm⟩
    rw [disassemble_of_matches hins, disassemble_of_matches hother]
    rfl
  · have hins : (shiftLeft x.val y.val).Matches word := ⟨hfits x y, hword.symm⟩
    have hother : (shiftLeft x.val y'.val).Matches word' := ⟨hfits x y', hword'.symm⟩
    rw [disassemble_of_matches hins, disassemble_of_matches hother]
    rfl

/-- The texts of two instructions are the same exactly if the instructions are, but for the
register that plays no part in a shift, and no text is the one for words without an instruction.
The operands need not fit their fields.  So 16-bit words that denote instructions have the same
text exactly if they are equal or shift the same register to the same side. -/
theorem text_unambiguous :
    (∀ ins other : Instruction Nat, ins.Exact → other.Exact →
      (((ins.map Nat.cast).map Number.ofInt).text = ((other.map Nat.cast).map Number.ofInt).text ↔
        ins.EqualButForShift other)) ∧
    (∀ ins : Instruction Nat, ins.Exact → ((ins.map Nat.cast).map Number.ofInt).text ≠ "???") ∧
    ∀ word word' : Nat, word < 0x10000 → word' < 0x10000 →
      decode? word ≠ none → decode? word' ≠ none →
        (disassemble (.ofInt word) = disassemble (.ofInt word') ↔
          word = word' ∨ SameShift word word') := by
  refine ⟨fun ins other h hother => ?_, fun ins h => text_ne_unknown h, ?_⟩
  · exact (text_eq_text_iff h hother).trans shown_eq_shown_iff
  · intro word word' hword hword' hdecode hdecode'
    obtain ⟨ins, hins⟩ := (decode?_eq_none_or_matches hword).resolve_left fun h => hdecode h.1
    obtain ⟨other, hother⟩ :=
      (decode?_eq_none_or_matches hword').resolve_left fun h => hdecode' h.1
    constructor
    · intro hsame
      have hshown := shown_eq_of_disassemble_eq hins hother hsame
      exact sameShift_of_equalButForShift hins hother (shown_eq_shown_iff.1 hshown)
    · rintro (rfl | hshift)
      · rfl
      · exact disassemble_eq_of_sameShift hshift

/-- Registers beyond the last one are told from each other too, and the words `8126` and `8136`
are not. -/
theorem text_unambiguous_draw :
    let wide : Instruction Nat := draw 0x11 0x1 10
    let other : Instruction Nat := draw 0x1 0x11 10
    ((wide.map Nat.cast).map Number.ofInt).text ≠ ((other.map Nat.cast).map Number.ofInt).text ∧
      ((wide.map Nat.cast).map Number.ofInt).text ≠ "???" ∧
      disassemble (.ofInt 0x8126) = disassemble (.ofInt 0x8136) := by
  intro wide other
  have hwide : wide.Exact := by decide
  have hother : other.Exact := by decide
  refine ⟨fun htext => ?_, text_unambiguous.2.1 wide hwide, ?_⟩
  · have hsame := (text_unambiguous.1 wide other hwide hother).1 htext
    simp [EqualButForShift, wide, other] at hsame
  · refine (text_unambiguous.2.2 0x8126 0x8136 (by decide) (by decide) (by decide) (by decide)).2 ?_
    exact .inr ⟨0x6, .inl rfl, 1, 2, 3, by decide, by decide⟩

end Chip8.Instruction
