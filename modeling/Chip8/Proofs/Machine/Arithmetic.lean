import Chip8.Proofs.Machine.Step

/-!
# Arithmetic of the registers

The words `7xkk` and `8xyn` compute with registers.  What such a word does is a change of the
registers that depends on nothing else (`Rewrites`): it can be executed on every machine, and a
step that has fetched it makes the same change (`Computes`).  A constant is added, and copies and
bitwise results are made, without a flag; they write `Vx` alone.  The other words also write a flag
into `VF`: a sum after its result (`Rewrites.result_flag`), a difference and a shift before it
(`Rewrites.flag_result`).

Result and flag together are the exact answer to a question about natural numbers: the carry is
what a sum loses (`toNat_add_carry`), the borrow what a difference gains (`toNat_sub_borrow`), and
the flag of a shift is the bit that it drops.  Where the result goes to `VF` itself, the one
written last is left.  `executeWord_arithmetic` says so for every machine and all pairs of
registers.
-/

namespace Chip8.Machine

/-! ### Results and flags as numbers -/

theorem toNat_flagValue_le (condition : Bool) : (flagValue condition).toNat ≤ 1 := by
  rw [toNat_flagValue]
  split_ifs <;> decide

/-- A carry is what a sum of bytes loses. -/
theorem toNat_add_carry (a b : UInt8) :
    a.toNat + b.toNat =
      (a + b).toNat + 0x100 * (flagValue (0xFF < a.toNat + b.toNat)).toNat := by
  have ha := a.toNat_lt
  have hb := b.toNat_lt
  rw [UInt8.toNat_add, toNat_flagValue]
  simp only [decide_eq_true_eq]
  split_ifs <;> omega

/-- A difference of bytes, in integers modulo 256. -/
theorem toNat_sub_emod (a b : UInt8) :
    ((a - b).toNat : Int) = ((a.toNat : Int) - b.toNat) % 0x100 := by
  have hb := b.toNat_lt
  rw [toNat_sub]
  omega

/-- A borrow is what a difference of bytes gains; the flag tells that there is none. -/
theorem toNat_sub_borrow (a b : UInt8) :
    (a.toNat : Int) - b.toNat = (a - b).toNat - 0x100 * (1 - (flagValue (b ≤ a)).toNat) := by
  have ha := a.toNat_lt
  have hb := b.toNat_lt
  rw [toNat_sub_emod, toNat_flagValue]
  simp only [decide_eq_true_eq, UInt8.le_iff_toNat_le]
  split_ifs <;> omega

theorem toNat_shiftRight_one (a : UInt8) : (a >>> 1).toNat = a.toNat / 2 := by
  simp [Nat.shiftRight_eq_div_pow]

theorem toNat_and_one (a : UInt8) : (a &&& 1).toNat = a.toNat % 2 := by
  simp

theorem toNat_shiftLeft_one (a : UInt8) : (a <<< 1).toNat = 2 * a.toNat % 0x100 := by
  simp [Nat.shiftLeft_eq, Nat.mul_comm]

theorem toNat_shiftRight_seven (a : UInt8) : (a >>> 7).toNat = a.toNat / 0x80 := by
  simp [Nat.shiftRight_eq_div_pow]

/-! ### Words that compute -/

/-- The registers with a byte in one of them. -/
def write (v : Vector UInt8 16) : Fin 16 → UInt8 → Vector UInt8 16
  | ⟨k, hk⟩, b => v.set k b hk

theorem get_write_self (v : Vector UInt8 16) (k : Fin 16) (b : UInt8) : (write v k b).get k = b :=
  Vector.getElem_set_self k.isLt

theorem get_write_of_ne (v : Vector UInt8 16) {j k : Fin 16} (h : j ≠ k) (b : UInt8) :
    (write v j b).get k = v.get k :=
  Vector.getElem_set_ne j.isLt k.isLt fun heq => h (Fin.ext heq)

/-- A word can be executed on every machine, and what it does is a change of the registers that
depends on nothing else. -/
def Rewrites (word : Int) (change : Vector UInt8 16 → Vector UInt8 16) : Prop :=
  ∀ m : Machine, m.executeWord word = { state := { m with v := change m.v } }

/-- A word changes nothing of a machine but registers, and of these only those in a list.  A step
that has fetched the word writes the same values. -/
structure Computes (m : Machine) (word : Int) (written : List (Fin 16)) : Prop where
  failure?_eq : (m.executeWord word).failure? = none
  state_eq : (m.executeWord word).state = { m with v := (m.executeWord word).state.v }
  get_eq : ∀ k ∉ written, (m.executeWord word).state.v.get k = m.v.get k
  step_eq : ∀ logger, m.fetch = .ok word →
    (m.loggedStep logger).failure? = none ∧
      (m.loggedStep logger).state = { m.advance with v := (m.executeWord word).state.v }

section Computes

variable {word : Int} {x : Fin 16} (m : Machine)

theorem Rewrites.computes {change : Vector UInt8 16 → Vector UInt8 16} (h : Rewrites word change)
    {written : List (Fin 16)} (hwritten : ∀ v, ∀ k ∉ written, (change v).get k = v.get k) :
    m.Computes word written := by
  constructor
  · rw [h m]
  · rw [h m]
  · intro k hk
    rw [h m]
    exact hwritten m.v k hk
  · intro logger hfetch
    rw [failure?_loggedStep, state_loggedStep, step_of_fetch hfetch]
    simp only [proceed, h m, h m.advance]
    exact ⟨rfl, rfl⟩

/-- A result alone. -/
theorem Rewrites.result {r : Vector UInt8 16 → UInt8} (h : Rewrites word fun v => write v x (r v)) :
    m.Computes word [x] ∧ (m.executeWord word).state.v.get x = r m.v := by
  constructor
  · apply h.computes
    intro v k hk
    rw [List.mem_singleton] at hk
    exact get_write_of_ne v (Ne.symm hk) _
  · rw [h m]
    exact get_write_self _ _ _

/-- A result `r` and then its flag `f`, which remains if both go to `VF`. -/
theorem Rewrites.result_flag {r f : Vector UInt8 16 → UInt8}
    (h : Rewrites word fun v => write (write v x (r v)) flag (f v)) :
    m.Computes word [x, flag] ∧ (m.executeWord word).state.v.get flag = f m.v ∧
      (x ≠ flag → (m.executeWord word).state.v.get x = r m.v) := by
  refine ⟨?_, ?_, ?_⟩
  · apply h.computes
    intro v k hk
    rw [List.mem_pair, not_or] at hk
    exact (get_write_of_ne _ (Ne.symm hk.2) _).trans (get_write_of_ne v (Ne.symm hk.1) _)
  · rw [h m]
    exact get_write_self _ flag _
  · intro hx
    rw [h m]
    exact (get_write_of_ne _ (Ne.symm hx) _).trans (get_write_self _ _ _)

/-- A flag `f` and then its result `r`, which remains if both go to `VF`. -/
theorem Rewrites.flag_result {r f : Vector UInt8 16 → UInt8}
    (h : Rewrites word fun v => write (write v flag (f v)) x (r v)) :
    m.Computes word [x, flag] ∧ (m.executeWord word).state.v.get x = r m.v ∧
      (x ≠ flag → (m.executeWord word).state.v.get flag = f m.v) := by
  refine ⟨?_, ?_, ?_⟩
  · apply h.computes
    intro v k hk
    rw [List.mem_pair, not_or] at hk
    exact (get_write_of_ne _ (Ne.symm hk.1) _).trans (get_write_of_ne v (Ne.symm hk.2) _)
  · rw [h m]
    exact get_write_self _ _ _
  · intro hx
    rw [h m]
    exact (get_write_of_ne _ hx _).trans (get_write_self _ flag _)

/-- A sum `a + b`, with a flag that is its carry. -/
theorem Rewrites.sum {a b : Vector UInt8 16 → UInt8}
    (h : Rewrites word fun v =>
      write (write v x (a v + b v)) flag (flagValue (0xFF < (a v).toNat + (b v).toNat))) :
    let vx := ((m.executeWord word).state.v.get x).toNat
    let vf := ((m.executeWord word).state.v.get flag).toNat
    m.Computes word [x, flag] ∧
      if x = flag then vf = if 0x100 ≤ (a m.v).toNat + (b m.v).toNat then 1 else 0
      else vf ≤ 1 ∧ (a m.v).toNat + (b m.v).toNat = vx + 0x100 * vf := by
  obtain ⟨hcomputes, hflag, hresult⟩ := h.result_flag m
  refine ⟨hcomputes, ?_⟩
  by_cases hx : x = flag
  · rw [if_pos hx, hflag, toNat_flagValue]
    simp only [decide_eq_true_eq, Nat.lt_iff_add_one_le]
  · rw [if_neg hx, hflag, hresult hx]
    exact ⟨toNat_flagValue_le _, toNat_add_carry _ _⟩

/-- A difference `a - b`, with a flag that tells that it needs no borrow. -/
theorem Rewrites.difference {a b : Vector UInt8 16 → UInt8}
    (h : Rewrites word fun v => write (write v flag (flagValue (b v ≤ a v))) x (a v - b v)) :
    let vx := ((m.executeWord word).state.v.get x).toNat
    let vf := ((m.executeWord word).state.v.get flag).toNat
    m.Computes word [x, flag] ∧
      if x = flag then (vf : Int) = (((a m.v).toNat : Int) - (b m.v).toNat) % 0x100
      else vf ≤ 1 ∧ ((a m.v).toNat : Int) - (b m.v).toNat = vx - 0x100 * (1 - vf) := by
  obtain ⟨hcomputes, hresult, hflag⟩ := h.flag_result m
  refine ⟨hcomputes, ?_⟩
  by_cases hx : x = flag
  · subst hx
    rw [if_pos rfl, hresult]
    exact toNat_sub_emod _ _
  · rw [if_neg hx, hresult, hflag hx]
    exact ⟨toNat_flagValue_le _, toNat_sub_borrow _ _⟩

/-- A shift to the right, with a flag that is the bit it loses. -/
theorem Rewrites.shiftRight {a : Vector UInt8 16 → UInt8}
    (h : Rewrites word fun v => write (write v flag (a v &&& 1)) x (a v >>> 1)) :
    let vx := ((m.executeWord word).state.v.get x).toNat
    let vf := ((m.executeWord word).state.v.get flag).toNat
    m.Computes word [x, flag] ∧
      if x = flag then vf = (a m.v).toNat / 2
      else vf ≤ 1 ∧ (a m.v).toNat = 2 * vx + vf := by
  obtain ⟨hcomputes, hresult, hflag⟩ := h.flag_result m
  refine ⟨hcomputes, ?_⟩
  by_cases hx : x = flag
  · subst hx
    rw [if_pos rfl, hresult, toNat_shiftRight_one]
  · rw [if_neg hx, hresult, hflag hx, toNat_shiftRight_one, toNat_and_one]
    omega

/-- A shift to the left, with a flag that is the bit it loses. -/
theorem Rewrites.shiftLeft {a : Vector UInt8 16 → UInt8}
    (h : Rewrites word fun v => write (write v flag (a v >>> 7)) x (a v <<< 1)) :
    let vx := ((m.executeWord word).state.v.get x).toNat
    let vf := ((m.executeWord word).state.v.get flag).toNat
    m.Computes word [x, flag] ∧
      if x = flag then vf = 2 * (a m.v).toNat % 0x100
      else vf ≤ 1 ∧ 2 * (a m.v).toNat = vx + 0x100 * vf := by
  have hlt := (a m.v).toNat_lt
  obtain ⟨hcomputes, hresult, hflag⟩ := h.flag_result m
  refine ⟨hcomputes, ?_⟩
  by_cases hx : x = flag
  · subst hx
    rw [if_pos rfl, hresult, toNat_shiftLeft_one]
  · rw [if_neg hx, hresult, hflag hx, toNat_shiftLeft_one, toNat_shiftRight_seven]
    omega

end Computes

/-! ### The words -/

/-- The word `7xkk`. -/
def constantWord (x : Fin 16) (kk : UInt8) : Nat := 0x7000 + x.val * 0x100 + kk.toNat

/-- The word `8xyn`. -/
def arithmeticWord (x y : Fin 16) (n : Nat) : Nat := 0x8000 + x.val * 0x100 + y.val * 0x10 + n

theorem rewrites_constant (x : Fin 16) (kk : UInt8) :
    Rewrites (constantWord x kk) fun v => write v x (v.get x + kk) := by
  intro m
  have hkk := kk.toNat_lt
  have hv := (m.v.get x).toNat_lt
  have hmatches : (Instruction.addImm x.val kk.toNat).Matches (constantWord x kk) := by
    simp only [Instruction.Matches, Instruction.map, Instruction.InRange, Instruction.encode,
      Instruction.packByte, constantWord]
    omega
  have hsum : ((numberOf (m.v.get x)).add (.ofInt kk.toNat)).toUInt8 = m.v.get x + kk := by
    rw [numberOf, Number.add_ofInt (by omega)]
    apply UInt8.toNat_inj.1
    rw [toNat_toUInt8, Number.truncate_ofInt, UInt8.toNat_add]
    omega
  rw [executeWord_of_matches m hmatches]
  simp only [Instruction.map, execute, register_ofInt, Outcome.guarded_ok]
  rw [← hsum]
  rfl

section Words

variable (x y : Fin 16)

/-- The word `8xyn` is executed as the instruction whose pattern it has. -/
theorem executeWord_arithmeticWord (m : Machine) (n : Nat) (ins : Instruction Nat)
    (hrange : (ins.map Nat.cast).InRange)
    (hencode : (ins.map Nat.cast).encode = Instruction.pack 0x8 x.val y.val n) :
    m.executeWord (arithmeticWord x y n) = m.execute ((ins.map Nat.cast).map .ofInt) := by
  refine executeWord_of_matches m ⟨hrange, hencode.trans ?_⟩
  simp only [Instruction.pack, arithmeticWord]
  omega

/-- Two registers fit the fields of an instruction. -/
theorem registers_inRange :
    (0 ≤ (x.val : Int) ∧ (x.val : Int) < 16) ∧ 0 ≤ (y.val : Int) ∧ (y.val : Int) < 16 := by
  omega

theorem rewrites_copy : Rewrites (arithmeticWord x y 0x0) fun v => write v x (v.get y) := by
  intro m
  rw [executeWord_arithmeticWord x y m 0x0 (.copy x.val y.val) (registers_inRange x y) rfl]
  simp only [Instruction.map, execute, registers_ofInt, Outcome.guarded_ok]
  rfl

theorem rewrites_or :
    Rewrites (arithmeticWord x y 0x1) fun v => write v x (v.get x ||| v.get y) := by
  intro m
  rw [executeWord_arithmeticWord x y m 0x1 (.or x.val y.val) (registers_inRange x y) rfl]
  simp only [Instruction.map, execute, registers_ofInt, Outcome.guarded_ok]
  rfl

theorem rewrites_and :
    Rewrites (arithmeticWord x y 0x2) fun v => write v x (v.get x &&& v.get y) := by
  intro m
  rw [executeWord_arithmeticWord x y m 0x2 (.and x.val y.val) (registers_inRange x y) rfl]
  simp only [Instruction.map, execute, registers_ofInt, Outcome.guarded_ok]
  rfl

theorem rewrites_xor :
    Rewrites (arithmeticWord x y 0x3) fun v => write v x (v.get x ^^^ v.get y) := by
  intro m
  rw [executeWord_arithmeticWord x y m 0x3 (.xor x.val y.val) (registers_inRange x y) rfl]
  simp only [Instruction.map, execute, registers_ofInt, Outcome.guarded_ok]
  rfl

theorem rewrites_add : Rewrites (arithmeticWord x y 0x4) fun v =>
    write (write v x (v.get x + v.get y)) flag
      (flagValue (0xFF < (v.get x).toNat + (v.get y).toNat)) := by
  intro m
  rw [executeWord_arithmeticWord x y m 0x4 (.add x.val y.val) (registers_inRange x y) rfl]
  simp only [Instruction.map, execute, registers_ofInt, Outcome.guarded_ok]
  rfl

theorem rewrites_sub : Rewrites (arithmeticWord x y 0x5) fun v =>
    write (write v flag (flagValue (v.get y ≤ v.get x))) x (v.get x - v.get y) := by
  intro m
  rw [executeWord_arithmeticWord x y m 0x5 (.sub x.val y.val) (registers_inRange x y) rfl]
  simp only [Instruction.map, execute, registers_ofInt, Outcome.guarded_ok]
  rfl

theorem rewrites_shiftRight : Rewrites (arithmeticWord x y 0x6) fun v =>
    write (write v flag (v.get x &&& 1)) x (v.get x >>> 1) := by
  intro m
  rw [executeWord_arithmeticWord x y m 0x6 (.shiftRight x.val y.val) (registers_inRange x y) rfl]
  simp only [Instruction.map, execute, register_ofInt, Outcome.guarded_ok]
  rfl

theorem rewrites_subFrom : Rewrites (arithmeticWord x y 0x7) fun v =>
    write (write v flag (flagValue (v.get x ≤ v.get y))) x (v.get y - v.get x) := by
  intro m
  rw [executeWord_arithmeticWord x y m 0x7 (.subFrom x.val y.val) (registers_inRange x y) rfl]
  simp only [Instruction.map, execute, registers_ofInt, Outcome.guarded_ok]
  rfl

theorem rewrites_shiftLeft : Rewrites (arithmeticWord x y 0xE) fun v =>
    write (write v flag (v.get x >>> 7)) x (v.get x <<< 1) := by
  intro m
  rw [executeWord_arithmeticWord x y m 0xE (.shiftLeft x.val y.val) (registers_inRange x y) rfl]
  simp only [Instruction.map, execute, register_ofInt, Outcome.guarded_ok]
  rfl

end Words

/-! ### Exact answers -/

/-- Every word `7xkk` and `8xyn` that is an instruction can be executed on every machine, and its
result and flag are exact: the carry of a sum, the missing borrow of a difference, the bit that a
shift loses.  If the result goes to `VF`, a sum leaves the carry there and the others the result.
No other register changes, and no other part of the machine. -/
theorem executeWord_arithmetic (m : Machine) (x y : Fin 16) (kk : UInt8) :
    let a := (m.v.get x).toNat
    let b := (m.v.get y).toNat
    let vx (word : Nat) := ((m.executeWord word).state.v.get x).toNat
    let vf (word : Nat) := ((m.executeWord word).state.v.get flag).toNat
    let constant := constantWord x kk
    let alu := arithmeticWord x y
    (m.Computes constant [x] ∧ vx constant = (a + kk.toNat) % 0x100) ∧
      (m.Computes (alu 0x0) [x] ∧ vx (alu 0x0) = b) ∧
      (m.Computes (alu 0x1) [x] ∧ vx (alu 0x1) = a ||| b) ∧
      (m.Computes (alu 0x2) [x] ∧ vx (alu 0x2) = a &&& b) ∧
      (m.Computes (alu 0x3) [x] ∧ vx (alu 0x3) = a ^^^ b) ∧
      (m.Computes (alu 0x4) [x, flag] ∧
        if x = flag then vf (alu 0x4) = if 0x100 ≤ a + b then 1 else 0
        else vf (alu 0x4) ≤ 1 ∧ a + b = vx (alu 0x4) + 0x100 * vf (alu 0x4)) ∧
      (m.Computes (alu 0x5) [x, flag] ∧
        if x = flag then (vf (alu 0x5) : Int) = ((a : Int) - b) % 0x100
        else vf (alu 0x5) ≤ 1 ∧ (a : Int) - b = vx (alu 0x5) - 0x100 * (1 - vf (alu 0x5))) ∧
      (m.Computes (alu 0x6) [x, flag] ∧
        if x = flag then vf (alu 0x6) = a / 2
        else vf (alu 0x6) ≤ 1 ∧ a = 2 * vx (alu 0x6) + vf (alu 0x6)) ∧
      (m.Computes (alu 0x7) [x, flag] ∧
        if x = flag then (vf (alu 0x7) : Int) = ((b : Int) - a) % 0x100
        else vf (alu 0x7) ≤ 1 ∧ (b : Int) - a = vx (alu 0x7) - 0x100 * (1 - vf (alu 0x7))) ∧
      (m.Computes (alu 0xE) [x, flag] ∧
        if x = flag then vf (alu 0xE) = 2 * a % 0x100
        else vf (alu 0xE) ≤ 1 ∧ 2 * a = vx (alu 0xE) + 0x100 * vf (alu 0xE)) := by
  intro a b vx vf constant alu
  refine ⟨?_, ?_, ?_, ?_, ?_, (rewrites_add x y).sum m, (rewrites_sub x y).difference m,
    (rewrites_shiftRight x y).shiftRight m, (rewrites_subFrom x y).difference m,
    (rewrites_shiftLeft x y).shiftLeft m⟩
  · obtain ⟨hcomputes, hresult⟩ := (rewrites_constant x kk).result m
    have hvx : vx constant = (m.v.get x + kk).toNat := congrArg UInt8.toNat hresult
    exact ⟨hcomputes, hvx.trans (UInt8.toNat_add _ _)⟩
  · obtain ⟨hcomputes, hresult⟩ := (rewrites_copy x y).result m
    exact ⟨hcomputes, congrArg UInt8.toNat hresult⟩
  · obtain ⟨hcomputes, hresult⟩ := (rewrites_or x y).result m
    have hvx : vx (alu 0x1) = (m.v.get x ||| m.v.get y).toNat := congrArg UInt8.toNat hresult
    exact ⟨hcomputes, hvx.trans (UInt8.toNat_or _ _)⟩
  · obtain ⟨hcomputes, hresult⟩ := (rewrites_and x y).result m
    have hvx : vx (alu 0x2) = (m.v.get x &&& m.v.get y).toNat := congrArg UInt8.toNat hresult
    exact ⟨hcomputes, hvx.trans (UInt8.toNat_and _ _)⟩
  · obtain ⟨hcomputes, hresult⟩ := (rewrites_xor x y).result m
    have hvx : vx (alu 0x3) = (m.v.get x ^^^ m.v.get y).toNat := congrArg UInt8.toNat hresult
    exact ⟨hcomputes, hvx.trans (UInt8.toNat_xor _ _)⟩

end Chip8.Machine
