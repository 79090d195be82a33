import Chip8.Proofs.Instruction.Code
import Chip8.Proofs.Machine.View

/-!
# The instruction table

What every instruction does, in natural numbers and apart from how it is carried out.  A row of the
table has a pattern, which is the word of the instruction (`Instruction.Matches`), an effect on the
view of a machine (`Instruction.effect`) and, for a few rows, a hazard, which is what goes wrong
instead (`Instruction.hazard`).

The program counter of the view is already past the instruction when the effect begins
(`View.advanced`).  A row changes what it names: the record updates leave everything else alone.
-/

namespace Chip8

/-! ### Parts of rows -/

namespace View

/-- The big-endian word at the program counter. -/
def word (s : View) : Nat := s.memory s.pc * 0x100 + s.memory (s.pc + 1)

/-- The program counter past the word. -/
def advanced (s : View) : View := { s with pc := s.pc + 2 }

/-- A number written into a register. -/
def put (s : View) (x value : Nat) : View := { s with v := Function.update s.v x value }

/-- The next instruction passed over if a condition holds. -/
def skip (s : View) (condition : Bool) : View := if condition then { s with pc := s.pc + 2 } else s

/-- Whether a sprite of `n` rows from `I` on, drawn at `(x, y)`, has a set pixel on the pixel
`(px, py)`, with wrapping on both axes. -/
def sprite (s : View) (x y n : Nat) (px : Fin 64) (py : Fin 32) : Bool :=
  let col := (((px.val : Int) - x) % 64).toNat
  let row := (((py.val : Int) - y) % 32).toNat
  decide (col < 8) && decide (row < n) && (s.memory (s.i + row)).testBit (7 - col)

/-- Whether any pixel is lit in one picture and not in another. -/
def goesOut (before after : Fin 64 → Fin 32 → Bool) : Bool :=
  (List.finRange 64).any fun px => (List.finRange 32).any fun py => before px py && !after px py

/-- The picture with a sprite drawn, and `VF` telling whether a lit pixel went out. -/
def drawn (s : View) (sprite : Fin 64 → Fin 32 → Bool) : View :=
  let pixel px py := s.pixel px py ^^ sprite px py
  { s.put 0xF (if goesOut s.pixel pixel then 1 else 0) with pixel, version := s.version + 1 }

/-- The lowest key that is held. -/
def lowestKey? (s : View) : Option Nat := (List.range 16).find? s.key

end View

/-- The low 8 bits of the answer of a random source. -/
def RandomSource.lowByte : Except Failure Number → Nat
  | .ok n => (n.truncate % 0x100).toNat
  | .error _ => 0

namespace Instruction

/-! ### The table -/

/-- The word is that of the instruction by its opcode pattern, and its operands fit. -/
def Matches (ins : Instruction Nat) (word : Nat) : Prop :=
  (ins.map Nat.cast).InRange ∧ (ins.map Nat.cast).encode = word

/-- What an instruction does to a machine that has moved its program counter past it. -/
def effect (ins : Instruction Nat) (s : View) : View :=
  match ins with
  | .clear => { s with pixel := fun _ _ => false, version := s.version + 1 }
  | .ret => { s with sp := s.sp - 1, pc := s.stack (s.sp - 1) }
  | .jump addr => { s with pc := addr }
  | .call addr =>
    { s with stack := Function.update s.stack s.sp s.pc, sp := s.sp + 1, pc := addr }
  | .skipIfImm x kk => s.skip (s.v x == kk)
  | .skipUnlessImm x kk => s.skip (s.v x != kk)
  | .skipIfReg x y => s.skip (s.v x == s.v y)
  | .skipUnlessReg x y => s.skip (s.v x != s.v y)
  | .setImm x kk => s.put x kk
  | .addImm x kk => s.put x ((s.v x + kk) % 0x100)
  | .copy x y => s.put x (s.v y)
  | .or x y => s.put x (s.v x ||| s.v y)
  | .and x y => s.put x (s.v x &&& s.v y)
  | .xor x y => s.put x (s.v x ^^^ s.v y)
  | .add x y =>
    (s.put x ((s.v x + s.v y) % 0x100)).put 0xF (if 0x100 ≤ s.v x + s.v y then 1 else 0)
  | .sub x y =>
    (s.put 0xF (if s.v y ≤ s.v x then 1 else 0)).put x ((0x100 + s.v x - s.v y) % 0x100)
  | .shiftRight x _ => (s.put 0xF (s.v x % 2)).put x (s.v x / 2)
  | .subFrom x y =>
    (s.put 0xF (if s.v x ≤ s.v y then 1 else 0)).put x ((0x100 + s.v y - s.v x) % 0x100)
  | .shiftLeft x _ => (s.put 0xF (s.v x / 0x80)).put x (s.v x * 2 % 0x100)
  | .setIndex addr => { s with i := addr }
  | .jumpOffset addr => { s with pc := addr + s.v 0 }
  | .random x kk =>
    { s.put x (RandomSource.lowByte s.random.next.1 &&& kk) with random := s.random.next.2 }
  | .draw x y n => s.drawn (s.sprite (s.v x) (s.v y) n)
  | .skipIfKey x => s.skip (s.key (s.v x % 16))
  | .skipUnlessKey x => s.skip (!s.key (s.v x % 16))
  | .readDelay x => s.put x s.dt
  | .waitKey x =>
    match s.lowestKey? with
    | none => { s with pc := s.pc - 2 }
    | some key => s.put x key
  | .setDelay x => { s with dt := s.v x }
  | .setSound x => { s with st := s.v x }
  | .addIndex x => { s with i := (s.i + s.v x) % 0x10000 }
  | .glyph x => { s with i := 0x050 + s.v x % 16 * 5 }
  | .storeDecimal x =>
    { s with
      memory := Function.update (Function.update (Function.update s.memory
        s.i (s.v x / 100)) (s.i + 1) (s.v x / 10 % 10)) (s.i + 2) (s.v x % 10) }
  | .storeRegisters x =>
    { s with memory := fun a => if s.i ≤ a ∧ a ≤ s.i + x then s.v (a - s.i) else s.memory a }
  | .loadRegisters x => { s with v := fun k => if k ≤ x then s.memory (s.i + k) else s.v k }

/-- The rows that change the picture. -/
def changesPicture : Instruction Nat → Bool
  | .clear | .draw _ _ _ => true
  | _ => false

/-- The row that asks the random source. -/
def asksRandom : Instruction Nat → Bool
  | .random _ _ => true
  | _ => false

/-- The rows that set the program counter. -/
def setsCounter : Instruction Nat → Bool
  | .ret | .jump _ | .call _ | .jumpOffset _ | .waitKey _ => true
  | .skipIfImm _ _ | .skipUnlessImm _ _ | .skipIfReg _ _ | .skipUnlessReg _ _ => true
  | .skipIfKey _ | .skipUnlessKey _ => true
  | _ => false

/-- An access of `len` bytes at `addr` that does not fit into a memory of a size. -/
def outside (size addr len : Nat) : Failure :=
  .fault (Memory.accessFault (.ofInt size) (.ofInt addr) (.ofInt len))

/-- What goes wrong with an instruction on a machine with a memory of a size. -/
def hazard (size : Nat) (s : View) : Instruction Nat → Option Failure
  | .ret =>
    if s.sp = 0 then some (.fault ⟨.stackUnderflow, "return with empty stack", {}⟩) else none
  | .call _ =>
    if s.sp = 16 then some (.fault ⟨.stackOverflow, "call nesting exceeds 16 levels", {}⟩)
    else none
  | .random _ _ =>
    match s.random.next.1 with
    | .ok _ => none
    | .error e => some e
  | .draw _ _ n => if 0 < n ∧ size < s.i + n then some (outside size s.i n) else none
  | .storeDecimal _ => if size < s.i + 3 then some (outside size s.i 3) else none
  | .storeRegisters x | .loadRegisters x =>
    if size < s.i + x + 1 then some (outside size s.i (x + 1)) else none
  | _ => none

/-! ### What rows leave alone -/

theorem version_effect (ins : Instruction Nat) (s : View) :
    (ins.effect s).version = s.version + if ins.changesPicture then 1 else 0 := by
  cases ins <;> simp only [effect, View.skip, View.put, View.drawn] <;> try rfl
  all_goals split <;> rfl

theorem random_effect (ins : Instruction Nat) (s : View) :
    (ins.effect s).random = if ins.asksRandom then s.random.next.2 else s.random := by
  cases ins <;> simp only [effect, View.skip, View.put, View.drawn] <;> try rfl
  all_goals split <;> rfl

theorem pc_effect {ins : Instruction Nat} (h : ins.setsCounter = false) (s : View) :
    (ins.effect s).pc = s.pc := by
  cases ins <;> first | rfl | cases h

theorem hazard_advanced (size : Nat) (s : View) (ins : Instruction Nat) :
    hazard size s.advanced ins = hazard size s ins := by
  cases ins <;> rfl

/-! ### Patterns -/

/-- A word matches one row of the table at most. -/
theorem matches_unique {ins other : Instruction Nat} {word : Nat} (h : ins.Matches word)
    (hother : other.Matches word) : ins = other := by
  have hcast := encode_injective h.1 hother.1 (h.2.trans hother.2.symm)
  have hback (i : Instruction Nat) : (i.map (Nat.cast : Nat → Int)).map Int.toNat = i := by
    rw [map_map, show Int.toNat ∘ (Nat.cast : Nat → Int) = id from funext Int.toNat_natCast, map_id]
  rw [← hback ins, hcast, hback]

/-- Operands that fit are natural numbers. -/
theorem exists_map_natCast {ins : Instruction Int} (h : ins.InRange) :
    ∃ other : Instruction Nat, other.map Nat.cast = ins := by
  refine ⟨ins.map Int.toNat, ?_⟩
  rw [map_map]
  cases ins <;> simp only [InRange] at h <;>
    simp only [map, Function.comp_apply, Int.toNat_of_nonneg, h]

/-- A word denotes the instruction of the row that it matches. -/
theorem decode?_of_matches {ins : Instruction Nat} {word : Nat} (h : ins.Matches word) :
    decode? word = some (ins.map Nat.cast) := by
  rw [← h.2]
  exact decode?_encode h.1

/-- A word without an instruction matches no row, and every other word matches one. -/
theorem decode?_eq_none_or_matches {word : Nat} (hword : word < 0x10000) :
    (decode? word = none ∧ ∀ ins : Instruction Nat, ¬ ins.Matches word) ∨
      ∃ ins : Instruction Nat, ins.Matches word := by
  cases h : decode? word with
  | none =>
    refine .inl ⟨rfl, fun ins hins => ?_⟩
    rw [decode?_of_matches hins] at h
    cases h
  | some ins =>
    obtain ⟨hrange, hencode⟩ := (decode?_eq_some_iff (by omega) ins).1 h
    obtain ⟨other, rfl⟩ := exists_map_natCast hrange
    exact .inr ⟨other, hrange, hencode⟩

end Instruction

end Chip8
