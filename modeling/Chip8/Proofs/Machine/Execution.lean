import Chip8.Proofs.Machine.Transfer

/-!
# Execution follows the table

Where the table names no hazard, executing an instruction whose operands fit succeeds and has the
effect of its row (`reaches_of_hazard_eq_none`); where it names one, that is what goes wrong
(`failure?_execute`).  Both hold for a memory of any size.  A failing instruction leaves the
machine as it was, whatever its operands, except that a random byte may have been drawn
(`state_execute_of_failure`).
-/

namespace Chip8.Machine

open Instruction (effect hazard outside)

/-! ### Success -/

theorem not_of_ite_eq_none {p : Prop} [Decidable p] {e : Failure}
    (h : (if p then some e else none) = none) : ¬ p := by
  intro hp
  rw [if_pos hp] at h
  cases h

/-- Without a hazard, an instruction has the effect of its row. -/
theorem reaches_of_hazard_eq_none {m : Machine} {size : Nat} (hm : m.WellFormed size)
    (hlow : 2 ≤ m.address) (hhigh : m.address + 2 < 0x10000) {ins : Instruction Nat}
    (hrange : (ins.map Nat.cast).InRange) (h : hazard size m.view ins = none) :
    Reaches (m.execute ((ins.map Nat.cast).map .ofInt)) size (ins.effect m.view) := by
  -- the operands fit their fields as natural numbers
  cases ins <;> simp only [Instruction.map, Instruction.InRange] at hrange
  case clear => exact reaches_clear hm
  case ret => exact reaches_ret hm (not_of_ite_eq_none h)
  case jump => exact reaches_jump hm (by omega)
  case call => exact reaches_call hm (by omega) (not_of_ite_eq_none h)
  case skipIfImm => exact reaches_skipIfImm hm hhigh (by omega)
  case skipUnlessImm => exact reaches_skipUnlessImm hm hhigh (by omega)
  case skipIfReg => exact reaches_skipIfReg hm hhigh (by omega) (by omega)
  case skipUnlessReg => exact reaches_skipUnlessReg hm hhigh (by omega) (by omega)
  case setImm => exact reaches_setImm hm (by omega) (by omega)
  case addImm => exact reaches_addImm hm (by omega) (by omega)
  case copy => exact reaches_copy hm (by omega) (by omega)
  case or => exact reaches_or hm (by omega) (by omega)
  case and => exact reaches_and hm (by omega) (by omega)
  case xor => exact reaches_xor hm (by omega) (by omega)
  case add => exact reaches_add hm (by omega) (by omega)
  case sub => exact reaches_sub hm (by omega) (by omega)
  case shiftRight => exact reaches_shiftRight hm (by omega)
  case subFrom => exact reaches_subFrom hm (by omega) (by omega)
  case shiftLeft => exact reaches_shiftLeft hm (by omega)
  case setIndex => exact reaches_setIndex hm (by omega)
  case jumpOffset => exact reaches_jumpOffset hm (by omega)
  case random =>
    cases hn : m.random.next.1 with
    | ok n => exact reaches_random hm (by omega) (by omega) hn
    | error e =>
      rw [hazard, view_random, hn] at h
      cases h
  case draw =>
    exact reaches_draw hm (by omega) (by omega) (by omega) (not_of_ite_eq_none h)
  case skipIfKey => exact reaches_skipIfKey hm hhigh (by omega)
  case skipUnlessKey => exact reaches_skipUnlessKey hm hhigh (by omega)
  case readDelay => exact reaches_readDelay hm (by omega)
  case waitKey => exact reaches_waitKey hm (by omega) hlow
  case setDelay => exact reaches_setDelay hm (by omega)
  case setSound => exact reaches_setSound hm (by omega)
  case addIndex => exact reaches_addIndex hm (by omega)
  case glyph => exact reaches_glyph hm (by omega)
  case storeDecimal =>
    exact reaches_storeDecimal hm (by omega) (Nat.le_of_not_lt (not_of_ite_eq_none h))
  case storeRegisters =>
    exact reaches_storeRegisters hm (by omega) (Nat.le_of_not_lt (not_of_ite_eq_none h))
  case loadRegisters =>
    exact reaches_loadRegisters hm (by omega) (Nat.le_of_not_lt (not_of_ite_eq_none h))

/-! ### Failure -/

/-- An instruction that asks the random source fails as this does. -/
theorem failure?_execute_random {m : Machine} {e : Failure} (h : m.random.next.1 = .error e)
    (x kk : Number) : (m.execute (.random x kk)).failure? = some e := by
  have hnext : m.random.next = (.error e, m.random.next.2) := Prod.ext h rfl
  rw [execute, hnext]

/-- With a hazard, that is the failure. -/
theorem failure?_execute {m : Machine} {size : Nat} (hm : m.WellFormed size)
    {ins : Instruction Nat} (hrange : (ins.map Nat.cast).InRange) {e : Failure}
    (h : hazard size m.view ins = some e) :
    (m.execute ((ins.map Nat.cast).map .ofInt)).failure? = some e := by
  cases ins <;> simp only [hazard, reduceCtorEq] at h <;>
    simp only [Instruction.map, Instruction.InRange] at hrange
  case ret =>
    obtain ⟨hsp, ⟨⟩⟩ := Option.ite_some_none_eq_some.1 h
    have hpop : m.stack.pop? = none := dif_neg (Nat.not_lt.2 (Nat.le_of_eq hsp))
    rw [Instruction.map, Instruction.map, execute, hpop]
  case call =>
    obtain ⟨hsp, ⟨⟩⟩ := Option.ite_some_none_eq_some.1 h
    have hpush : m.stack.push? m.pc.toUInt16 = none :=
      dif_neg (Nat.not_lt.2 (Nat.le_of_eq hsp.symm))
    rw [Instruction.map, Instruction.map, execute, hpush]
  case random =>
    rw [view_random] at h
    cases hanswer : m.random.next.1 with
    | ok n =>
      rw [hanswer] at h
      cases h
    | error e =>
      rw [hanswer] at h
      cases h
      exact failure?_execute_random hanswer _ _
  case draw x y n =>
    obtain ⟨⟨hpos, hout⟩, ⟨⟩⟩ := Option.ite_some_none_eq_some.1 h
    have hvalue : (0 : Rat) < ((n : Int) : Rat) := by exact_mod_cast hpos
    have hrows : m.spriteRows (.ofInt n) = .error (outside size m.index n) := by
      rw [spriteRows, Number.value_ofInt, if_pos hvalue]
      exact excerpt_of_lt hm hout
    simp only [Instruction.map, execute, hrows]
    rfl
  case storeDecimal x =>
    obtain ⟨hout, ⟨⟩⟩ := Option.ite_some_none_eq_some.1 h
    have hfails : ¬ m.index + 3 ≤ size := Nat.not_le.2 hout
    have hexecute := execute_storeDecimal hm (show x < 16 by omega)
    rw [if_neg hfails] at hexecute
    exact congrArg Outcome.failure? hexecute
  case storeRegisters x =>
    obtain ⟨hout, ⟨⟩⟩ := Option.ite_some_none_eq_some.1 h
    have hfails : ¬ m.index + x + 1 ≤ size := Nat.not_le.2 hout
    have hexecute := execute_storeRegisters hm (show x < 16 by omega)
    rw [if_neg hfails] at hexecute
    exact congrArg Outcome.failure? hexecute
  case loadRegisters x =>
    obtain ⟨hout, ⟨⟩⟩ := Option.ite_some_none_eq_some.1 h
    have hfails : ¬ m.index + x + 1 ≤ size := Nat.not_le.2 hout
    have hexecute := execute_loadRegisters hm (show x < 16 by omega)
    rw [if_neg hfails] at hexecute
    exact congrArg Outcome.failure? hexecute

/-- A failing instruction has drawn a random byte at most. -/
theorem state_execute_of_failure {m : Machine} {ins : Instruction Number}
    (h : (m.execute ins).failure?.isSome) :
    (m.execute ins).state = m ∨
      (m.execute ins).state = { m with random := m.random.next.2 } := by
  cases ins
  case ret =>
    simp only [execute] at h ⊢
    cases hpop : m.stack.pop? with
    | none => exact .inl rfl
    | some top =>
      rw [hpop] at h
      cases h
  case call =>
    simp only [execute] at h ⊢
    cases hpush : m.stack.push? m.pc.toUInt16 with
    | none => exact .inl rfl
    | some stack =>
      rw [hpush] at h
      cases h
  case random x kk =>
    refine .inr ?_
    simp only [execute] at h ⊢
    generalize m.random.next = drawn at h ⊢
    obtain ⟨answer, random⟩ := drawn
    cases answer with
    | error e => rfl
    | ok byte => exact Outcome.state_guarded_of_failure h
  case waitKey =>
    simp only [execute] at h ⊢
    cases hkey : m.keypad.firstPressed? with
    | none =>
      rw [hkey] at h
      cases h
    | some key =>
      rw [hkey] at h
      exact .inl (Outcome.state_guarded_of_failure h)
  -- the other instructions are a check before a change, or cannot fail
  all_goals first
    | exact .inl (Outcome.state_guarded_of_failure h)
    | cases h

end Chip8.Machine
