import Chip8.Proofs.Machine.Step

/-!
# When a step fails

The ways in which a step of a machine with the standard memory goes wrong, each with what it fails
with (`StepFailure`).  A step fails exactly in these ways.  So neither the checks of register and
key numbers nor the faults of loading ever show in a step, but for those that the random source
itself raises (`SourceRaises`).

What the random source raises comes out as it is, unless it is a fault of the machine: then what it
leaves open of where it arose is filled in, so it comes out changed (`failure?_loggedStep_raising`).
-/

namespace Chip8.Machine

open Instruction (effect hazard outside)

/-! ### Failures of a step by the table -/

/-- A step fails where the fetch does, where no row matches and where a row has a hazard. -/
theorem failure?_step_eq_some_iff {m : Machine} {size : Nat} (hm : m.WellFormed size)
    (hsize : size + 2 < 0x10000) (e : Failure) :
    m.step.failure? = some e ↔
      (size < m.address + 2 ∧ e = .fault (fetchFault m.pc)) ∨
        m.address + 2 ≤ size ∧
          (((∀ ins : Instruction Nat, ¬ ins.Matches m.view.word) ∧
              e = .fault ⟨.unknownOpcode, "no instruction matches opcode", m.circumstances⟩) ∨
            ∃ ins : Instruction Nat, ins.Matches m.view.word ∧
              ∃ cause, hazard size m.view ins = some cause ∧
                e = cause.withContext m.circumstances) := by
  cases step_cases hm hsize with
  | fetchFails hout hstep =>
    rw [hstep, Option.some.injEq, eq_comm]
    constructor
    · exact fun he => .inl ⟨hout, he⟩
    · rintro (⟨-, he⟩ | ⟨hin, -⟩)
      · exact he
      · omega
  | matchesNone hin hnone hstep =>
    rw [hstep, Option.some.injEq, eq_comm]
    constructor
    · exact fun he => .inr ⟨hin, .inl ⟨hnone, he⟩⟩
    · rintro (⟨hout, -⟩ | ⟨-, ⟨-, he⟩ | ⟨ins, hins, -⟩⟩)
      · omega
      · exact he
      · exact absurd hins (hnone ins)
  | fails hin ins hins cause hcause hfailure =>
    rw [hfailure, Option.some.injEq, eq_comm]
    constructor
    · exact fun he => .inr ⟨hin, .inr ⟨ins, hins, cause, hcause, he⟩⟩
    · rintro (⟨hout, -⟩ | ⟨-, ⟨hnone, -⟩ | ⟨other, hother, cause', hcause', he⟩⟩)
      · omega
      · exact absurd hins (hnone ins)
      · obtain rfl := Instruction.matches_unique hother hins
        rw [hcause', Option.some.injEq] at hcause
        rw [he, hcause]
  | succeeds hin ins hins hnone hreaches =>
    rw [hreaches.failure?_eq]
    refine iff_of_false (by simp) ?_
    rintro (⟨hout, -⟩ | ⟨-, ⟨hnone', -⟩ | ⟨other, hother, cause, hcause, -⟩⟩)
    · omega
    · exact hnone' ins hins
    · obtain rfl := Instruction.matches_unique hother hins
      rw [hnone] at hcause
      cases hcause

/-! ### Failures of a step one by one -/

/-- An access at the index register that does not fit into the memory. -/
def accessFailure (m : Machine) (len : Nat) : Failure :=
  .fault { Memory.accessFault m.memory.size m.i (.ofInt len) with
    context := { m.circumstances with addr? := some m.i } }

/-- What a step of a machine with the standard memory fails with. -/
inductive StepFailure (m : Machine) : Failure → Prop
  | fetch (hpc : 4095 ≤ m.address) :
      StepFailure m
        (.fault ⟨.outOfBounds, "program counter outside memory", { pc? := some m.pc }⟩)
  | unknownOpcode (hpc : m.address < 4095)
      (hnone : ∀ ins : Instruction Nat, ¬ ins.Matches m.view.word) :
      StepFailure m (.fault ⟨.unknownOpcode, "no instruction matches opcode", m.circumstances⟩)
  | stackUnderflow (hpc : m.address < 4095) (hword : Instruction.ret.Matches m.view.word)
      (hsp : m.view.sp = 0) :
      StepFailure m (.fault ⟨.stackUnderflow, "return with empty stack", m.circumstances⟩)
  | stackOverflow (hpc : m.address < 4095) {addr : Nat}
      (hword : (Instruction.call addr).Matches m.view.word) (hsp : m.view.sp = 16) :
      StepFailure m (.fault ⟨.stackOverflow, "call nesting exceeds 16 levels", m.circumstances⟩)
  | draw (hpc : m.address < 4095) {x y n : Nat}
      (hword : (Instruction.draw x y n).Matches m.view.word) (hn : 0 < n)
      (hi : 4096 < m.index + n) : StepFailure m (m.accessFailure n)
  | storeDecimal (hpc : m.address < 4095) {x : Nat}
      (hword : (Instruction.storeDecimal x).Matches m.view.word) (hi : 4096 < m.index + 3) :
      StepFailure m (m.accessFailure 3)
  | storeRegisters (hpc : m.address < 4095) {x : Nat}
      (hword : (Instruction.storeRegisters x).Matches m.view.word)
      (hi : 4096 < m.index + x + 1) : StepFailure m (m.accessFailure (x + 1))
  | loadRegisters (hpc : m.address < 4095) {x : Nat}
      (hword : (Instruction.loadRegisters x).Matches m.view.word)
      (hi : 4096 < m.index + x + 1) : StepFailure m (m.accessFailure (x + 1))
  | random (hpc : m.address < 4095) {x kk : Nat}
      (hword : (Instruction.random x kk).Matches m.view.word) {e : Failure}
      (he : m.random.next.1 = .error e) : StepFailure m (e.withContext m.circumstances)

theorem outside_withContext {m : Machine} {size : Nat} (hm : m.WellFormed size) (len : Nat) :
    (outside size m.index len).withContext m.circumstances = m.accessFailure len := by
  rw [accessFailure, hm.size_eq, hm.i_eq]
  rfl

theorem failure?_step_iff_stepFailure {m : Machine} (hm : m.WellFormed Memory.standardSize)
    (e : Failure) : m.step.failure? = some e ↔ StepFailure m e := by
  have hsize : Memory.standardSize = 4096 := rfl
  rw [failure?_step_eq_some_iff hm (by decide)]
  constructor
  · rintro (⟨hout, rfl⟩ | ⟨hin, ⟨hnone, rfl⟩ | ⟨ins, hins, cause, hcause, rfl⟩⟩)
    · exact .fetch (by omega)
    · exact .unknownOpcode (by omega) hnone
    · have hpc : m.address < 4095 := by omega
      cases ins <;> simp only [hazard, reduceCtorEq] at hcause
      case ret =>
        obtain ⟨hsp, rfl⟩ := Option.ite_some_none_eq_some.1 hcause
        exact .stackUnderflow hpc hins hsp
      case call =>
        obtain ⟨hsp, rfl⟩ := Option.ite_some_none_eq_some.1 hcause
        exact .stackOverflow hpc hins hsp
      case random =>
        split at hcause
        next => cases hcause
        next he =>
          cases hcause
          exact .random hpc hins he
      case draw =>
        obtain ⟨⟨hn, hi⟩, rfl⟩ := Option.ite_some_none_eq_some.1 hcause
        exact outside_withContext hm _ ▸ .draw hpc hins hn hi
      case storeDecimal =>
        obtain ⟨hi, rfl⟩ := Option.ite_some_none_eq_some.1 hcause
        exact outside_withContext hm _ ▸ .storeDecimal hpc hins hi
      case storeRegisters =>
        obtain ⟨hi, rfl⟩ := Option.ite_some_none_eq_some.1 hcause
        exact outside_withContext hm _ ▸ .storeRegisters hpc hins hi
      case loadRegisters =>
        obtain ⟨hi, rfl⟩ := Option.ite_some_none_eq_some.1 hcause
        exact outside_withContext hm _ ▸ .loadRegisters hpc hins hi
  · intro h
    cases h with
    | fetch hpc => exact .inl ⟨by omega, rfl⟩
    | unknownOpcode hpc hnone => exact .inr ⟨by omega, .inl ⟨hnone, rfl⟩⟩
    | stackUnderflow hpc hword hsp =>
      exact .inr ⟨by omega, .inr ⟨_, hword, _, if_pos hsp, rfl⟩⟩
    | stackOverflow hpc hword hsp =>
      exact .inr ⟨by omega, .inr ⟨_, hword, _, if_pos hsp, rfl⟩⟩
    | draw hpc hword hn hi =>
      exact .inr ⟨by omega, .inr ⟨_, hword, _, if_pos ⟨hn, hi⟩, (outside_withContext hm _).symm⟩⟩
    | storeDecimal hpc hword hi =>
      exact .inr ⟨by omega, .inr ⟨_, hword, _, if_pos hi, (outside_withContext hm _).symm⟩⟩
    | storeRegisters hpc hword hi =>
      exact .inr ⟨by omega, .inr ⟨_, hword, _, if_pos hi, (outside_withContext hm _).symm⟩⟩
    | loadRegisters hpc hword hi =>
      exact .inr ⟨by omega, .inr ⟨_, hword, _, if_pos hi, (outside_withContext hm _).symm⟩⟩
    | random hpc hword he =>
      refine .inr ⟨by omega, .inr ⟨_, hword, _, ?_, rfl⟩⟩
      rw [hazard, view_random, he]

/-! ### Failures that no step has -/

theorem eq_fault_of_withContext {e : Failure} {c : FaultContext} {f : Fault}
    (h : e.withContext c = .fault f) : ∃ g, e = .fault g := by
  cases e with
  | fault g => exact ⟨g, rfl⟩
  | _ => cases h

/-- The word asks the random source, and this raises a fault of the machine in place of a byte. -/
def SourceRaises (m : Machine) (word : Nat) (g : Fault) : Prop :=
  (∃ x kk : Nat, (Instruction.random x kk).Matches word) ∧ m.random.next.1 = .error (.fault g)

/-- An access outside the memory is told in other words than a number that names no register or
no key; the first letters suffice. -/
theorem detail_of_stepFailure {m : Machine} {e : Failure} (h : StepFailure m e)
    (hrandom : ∀ g, ¬ m.SourceRaises m.view.word g) {f : Fault} (hf : e = .fault f) :
    f.isLoadFault = false ∧
      (f.code = .outOfBounds → f.detail.toList.head? ∈ [some 'p', some 'm']) := by
  cases h with
  | random _ hword he =>
    obtain ⟨g, rfl⟩ := eq_fault_of_withContext hf
    exact absurd ⟨⟨_, _, hword⟩, he⟩ (hrandom g)
  | unknownOpcode | stackUnderflow | stackOverflow =>
    cases hf
    refine ⟨rfl, fun hcode => ?_⟩
    cases hcode
  | fetch | draw | storeDecimal | storeRegisters | loadRegisters =>
    cases hf
    refine ⟨rfl, fun _ => ?_⟩
    simp [Memory.accessFault]

/-! ### Failures of the random source -/

theorem withContext_of_not_fault {e : Failure} (h : ∀ g, e ≠ .fault g) (c : FaultContext) :
    e.withContext c = e := by
  cases e with
  | fault g => exact absurd rfl (h g)
  | _ => rfl

/-- The circumstances of a step are an address of an instruction and its word, and no other
address. -/
theorem withContext_circumstances (m : Machine) (g : Fault) :
    g.withContext m.circumstances =
      { g with context := {
          pc? := g.context.pc?.or (some m.pc)
          opcode? := g.context.opcode?.or (some (.ofInt m.view.word))
          addr? := g.context.addr? } } := by
  rw [Fault.withContext, FaultContext.orElse, circumstances, Option.or_none]

/-- A step of a well-formed machine with the standard memory fails exactly as `StepFailure` lists,
and else succeeds.  Unless the word asks the random source and this raises a fault of the machine,
the fault is neither one of loading nor one of a number that names no register or no key.  What the
random source raises comes out as it is; but a fault of the machine gets the address and the word of
the instruction, as far as it does not know them. -/
theorem failure?_loggedStep_eq_some_iff {m : Machine} (hm : m.WellFormed Memory.standardSize)
    (logger : Logger) :
    (∀ e, (m.loggedStep logger).failure? = some e ↔ StepFailure m e) ∧
      (∀ f, (m.loggedStep logger).failure? = some (.fault f) →
        (∀ g, ¬ m.SourceRaises m.view.word g) →
          f.isLoadFault = false ∧
            (∀ index c, f ≠ { registerFault index with context := c }) ∧
            ∀ key c, f ≠ { Keypad.keyFault key with context := c }) ∧
      ∀ x kk, m.address < 4095 → (Instruction.random x kk).Matches m.view.word →
        (∀ e, m.random.next.1 = .error e → (∀ g, e ≠ .fault g) →
          (m.loggedStep logger).failure? = some e) ∧
        ∀ g, m.random.next.1 = .error (.fault g) →
          (m.loggedStep logger).failure? = some (.fault { g with context := {
            pc? := g.context.pc?.or (some m.pc)
            opcode? := g.context.opcode?.or (some (.ofInt m.view.word))
            addr? := g.context.addr? } }) := by
  have hiff (e : Failure) : (m.loggedStep logger).failure? = some e ↔ StepFailure m e := by
    rw [failure?_loggedStep]
    exact failure?_step_iff_stepFailure hm e
  refine ⟨hiff, ?_, ?_⟩
  · intro f hfailure hrandom
    obtain ⟨hload, hdetail⟩ := detail_of_stepFailure ((hiff _).1 hfailure) hrandom rfl
    refine ⟨hload, ?_, ?_⟩
    · rintro index c rfl
      have hhead := hdetail rfl
      simp [registerFault] at hhead
    · rintro key c rfl
      have hhead := hdetail rfl
      simp [Keypad.keyFault] at hhead
  · intro x kk hpc hword
    constructor
    · intro e he hhost
      rw [hiff, ← withContext_of_not_fault hhost m.circumstances]
      exact .random hpc hword he
    · intro g hg
      rw [hiff, ← withContext_circumstances]
      exact .random hpc hword hg

/-- A return without a call, and a random source that refuses. -/
theorem failure?_loggedStep_ret_random :
    ((programmed (.replay #[0xAB] 0) [0x00, 0xEE]).loggedStep (.recorder true)).failure? =
        some (.fault ⟨.stackUnderflow, "return with empty stack",
          { pc? := some (.ofInt 0x200), opcode? := some (.ofInt 0x00EE) }⟩) ∧
      ((programmed (.refusing "no byte") [0xC1, 0x0F]).loggedStep (.recorder true)).failure? =
        some (.host "no byte") := by
  have hcircumstances : (programmed (.replay #[0xAB] 0) [0x00, 0xEE]).circumstances =
      { pc? := some (.ofInt 0x200), opcode? := some (.ofInt 0x00EE) } := by
    decide +kernel
  have hret := wellFormed_programmed (.replay #[0xAB] 0) [0x00, 0xEE]
  have hrandom := wellFormed_programmed (.refusing "no byte") [0xC1, 0x0F]
  constructor
  · rw [← hcircumstances]
    refine ((failure?_loggedStep_eq_some_iff hret (.recorder true)).1 _).2 ?_
    exact .stackUnderflow (by decide +kernel) ⟨trivial, by decide +kernel⟩ (by decide +kernel)
  · refine ((failure?_loggedStep_eq_some_iff hrandom (.recorder true)).2.2 0x1 0x0F
      (by decide +kernel) ?_).1 _ rfl (by simp)
    exact ⟨by decide, by decide +kernel⟩

/-- A source that raises a fault of the machine in place of every byte. -/
def raising (g : Fault) : RandomSource := .answers (fun _ => .error (.fault g)) 0

/-- A fault that the random source raises does not come out as it is. -/
theorem failure?_loggedStep_raising :
    let g : Fault := ⟨.unknownOpcode, "from the source", {}⟩
    let m := programmed (raising g) [0xC1, 0x0F]
    m.WellFormed Memory.standardSize ∧ m.SourceRaises m.view.word g ∧
      (m.loggedStep (.recorder true)).failure? ≠ some (.fault g) ∧
      (m.loggedStep (.recorder true)).failure? = some (.fault { g with
        context := { pc? := some (.ofInt 0x200), opcode? := some (.ofInt 0xC10F) } }) := by
  intro g m
  have hword : (Instruction.random 0x1 0x0F).Matches m.view.word :=
    ⟨by decide, by decide +kernel⟩
  refine ⟨wellFormed_programmed _ _, ⟨⟨_, _, hword⟩, rfl⟩, ?_, ?_⟩
  all_goals decide +kernel

end Chip8.Machine
