import Chip8.Proofs.Instruction.Text
import Chip8.Proofs.Machine.Faults
import Chip8.Proofs.Machine.Tracing

/-!
# A trace foretells the step

What a snapshot shows of a machine is what the next step meets, for a memory of any size: the
snapshot has no word exactly when the fetch fails, and otherwise it has the word that the step
fetches.  The text of the word tells whether the step fails for want of an instruction, and more:
words with the same text are executed alike (`executeWord_eq`), although the text of a shift leaves
out a register.

For this it has to be known what the faults of instructions themselves look like.  None of them is
that of a word without an instruction, and none knows where it arose (`unplaced_of_execute`), so
the address and the word that the step adds come through.  The random source is the host's, and may
raise what it likes; so where a word asks it, it can raise a fault that the snapshot does not
foretell (`loggedStep_raising_unforetold`).
-/

namespace Chip8.Machine

open Instruction (disassemble)

/-! ### Faults of instructions -/

/-- The fault is not that of a word without an instruction, and neither the address nor the word
of the instruction that raised it is known. -/
structure Unplaced (f : Fault) : Prop where
  code_ne : f.code ≠ .unknownOpcode
  pc?_eq : f.context.pc? = none
  opcode?_eq : f.context.opcode? = none

/-- The faults that the check raises are unplaced. -/
def RaisesUnplaced {α : Type} (check : Except Failure α) : Prop :=
  ∀ f, check = .error (.fault f) → Unplaced f

theorem raisesUnplaced_ok {α : Type} (a : α) : RaisesUnplaced (.ok a) := by
  intro f hf
  cases hf

theorem RaisesUnplaced.bind {α β : Type} {check : Except Failure α} (h : RaisesUnplaced check)
    {next : α → Except Failure β} (hnext : ∀ a, RaisesUnplaced (next a)) :
    RaisesUnplaced (check >>= next) := by
  cases check with
  | error e =>
    intro f hf
    cases hf
    exact h f rfl
  | ok a => exact hnext a

/-- A change after a check fails as the check does. -/
theorem RaisesUnplaced.guarded {α : Type} {check : Except Failure α} (h : RaisesUnplaced check)
    {m : Machine} {change : α → Machine} {f : Fault}
    (hf : (Outcome.guarded m check change).failure? = some (.fault f)) : Unplaced f := by
  cases check with
  | error e =>
    cases hf
    exact h f rfl
  | ok a => cases hf

theorem raisesUnplaced_register (x : Number) : RaisesUnplaced (register x) := by
  have hfault (index : Number) : Unplaced (registerFault index) :=
    ⟨by simp [registerFault], rfl, rfl⟩
  intro f hf
  unfold register integerRegister at hf
  split at hf
  all_goals
    split at hf
    · cases hf
    · cases hf
      exact hfault _

theorem raisesUnplaced_registers (x y : Number) : RaisesUnplaced (registers x y) :=
  (raisesUnplaced_register x).bind fun _ =>
    (raisesUnplaced_register y).bind fun _ => raisesUnplaced_ok _

/-- An access that fails knows the address that it was to be made at, and nothing else. -/
theorem raisesUnplaced_memory {α : Type} {check : Except Fault α} {size addr : Number}
    (h : ∀ f, check = .error f → ∃ len, f = Memory.accessFault size addr len) :
    RaisesUnplaced (check.mapError .fault) := by
  intro f hf
  cases check with
  | error g =>
    cases hf
    obtain ⟨len, rfl⟩ := h f rfl
    exact ⟨by simp [Memory.accessFault], rfl, rfl⟩
  | ok a => cases hf

theorem raisesUnplaced_access (m : Machine) (len : Int) : RaisesUnplaced (m.access len) :=
  raisesUnplaced_memory fun _ h => ⟨.ofInt len, Memory.eq_accessFault_of_locate h⟩

theorem raisesUnplaced_excerpt (m : Machine) (len : Number) : RaisesUnplaced (m.excerpt len) :=
  raisesUnplaced_memory fun _ h => Memory.eq_accessFault_of_excerpt h

theorem raisesUnplaced_spriteRows (m : Machine) (n : Number) : RaisesUnplaced (m.spriteRows n) := by
  unfold spriteRows
  split
  · exact raisesUnplaced_excerpt m n
  · exact raisesUnplaced_ok _

theorem raisesUnplaced_incoming (m : Machine) (x : Number) : RaisesUnplaced (m.incoming x) := by
  refine (raisesUnplaced_excerpt m _).bind fun values => ?_
  intro f hf
  -- more bytes than registers are no fault of the machine
  split at hf <;> cases hf

/-- Whatever its operands, an instruction raises unplaced faults, unless it asks the random source
and this has raised another one. -/
theorem unplaced_of_execute {m : Machine} {ins : Instruction Number} {f : Fault}
    (h : (m.execute ins).failure? = some (.fault f)) :
    Unplaced f ∨ (∃ x kk, ins = .random x kk) ∧ m.random.next.1 = .error (.fault f) := by
  cases ins
  case ret =>
    simp only [execute] at h
    split at h
    · cases h
      exact .inl ⟨by simp, rfl, rfl⟩
    · cases h
  case call addr =>
    simp only [execute] at h
    split at h
    · cases h
      exact .inl ⟨by simp, rfl, rfl⟩
    · cases h
  case random x kk =>
    simp only [execute] at h
    generalize m.random.next = drawn at h ⊢
    obtain ⟨answer, random⟩ := drawn
    cases answer with
    | error e =>
      cases h
      exact .inr ⟨⟨x, kk, rfl⟩, rfl⟩
    | ok byte => exact .inl ((raisesUnplaced_register x).guarded h)
  case waitKey x =>
    simp only [execute] at h
    split at h
    · cases h
    · exact .inl ((raisesUnplaced_register x).guarded h)
  case draw x y n =>
    refine .inl (RaisesUnplaced.guarded ?_ h)
    exact (raisesUnplaced_spriteRows m n).bind fun _ =>
      (raisesUnplaced_registers x y).bind fun _ => raisesUnplaced_ok _
  case storeDecimal x =>
    refine .inl (RaisesUnplaced.guarded ?_ h)
    exact (raisesUnplaced_register x).bind fun _ =>
      (raisesUnplaced_access m 3).bind fun _ => raisesUnplaced_ok _
  case storeRegisters x => exact .inl ((raisesUnplaced_access m _).guarded h)
  case loadRegisters x => exact .inl ((raisesUnplaced_incoming m x).guarded h)
  case copy x y => exact .inl ((raisesUnplaced_registers y x).guarded h)
  case skipIfReg x y | skipUnlessReg x y | or x y | and x y | xor x y | add x y | sub x y
      | subFrom x y =>
    exact .inl ((raisesUnplaced_registers x y).guarded h)
  case skipIfImm x _ | skipUnlessImm x _ | setImm x _ | addImm x _ | shiftRight x _
      | shiftLeft x _ =>
    exact .inl ((raisesUnplaced_register x).guarded h)
  case skipIfKey x | skipUnlessKey x | readDelay x | setDelay x | setSound x | addIndex x
      | glyph x =>
    exact .inl ((raisesUnplaced_register x).guarded h)
  -- the other rows cannot fail
  case clear | jump | setIndex | jumpOffset => cases h

/-! ### Faults of steps -/

/-- A fault that does not know where it arose gets the address and the word of the step. -/
theorem placed_withContext (m : Machine) {g : Fault} (hpc : g.context.pc? = none)
    (hopcode : g.context.opcode? = none) :
    (g.withContext m.circumstances).context.pc? = some m.pc ∧
      (g.withContext m.circumstances).context.opcode? = some (.ofInt m.view.word) := by
  rw [withContext_circumstances, hpc, hopcode]
  exact ⟨rfl, rfl⟩

section Steps

variable {m : Machine} {size : Nat} (hm : m.WellFormed size) (hsize : size < 0x20000000000000)
  (hin : m.address + 2 ≤ size) {ins : Instruction Nat} (hins : ins.Matches m.view.word)

include hm hsize hin hins

/-- A fault of an instruction gets the circumstances of the step. -/
theorem exists_cause_of_step {f : Fault} (h : m.step.failure? = some (.fault f)) :
    ∃ cause, f = cause.withContext m.circumstances ∧
      (Unplaced cause ∨ m.SourceRaises m.view.word cause) := by
  rw [step_of_matches hm hsize hin hins, Outcome.failure?_withContext, Option.map_eq_some_iff] at h
  obtain ⟨e, he, hf⟩ := h
  obtain ⟨cause, rfl⟩ := eq_fault_of_withContext hf
  refine ⟨cause, (Failure.fault.inj hf).symm, ?_⟩
  rcases unplaced_of_execute he with hcause | ⟨⟨x, kk, hrandom⟩, hraised⟩
  · exact .inl hcause
  · cases ins <;> cases hrandom
    exact .inr ⟨⟨_, _, hins⟩, hraised⟩

theorem opcode?_ne_none_of_step {f : Fault} (h : m.step.failure? = some (.fault f)) :
    f.context.opcode? ≠ none := by
  obtain ⟨cause, rfl, -⟩ := exists_cause_of_step hm hsize hin hins h
  show cause.context.opcode?.or (some _) ≠ none
  cases cause.context.opcode? with
  | none => exact Option.some_ne_none _
  | some word => exact Option.some_ne_none _

theorem fault_of_step {f : Fault} (h : m.step.failure? = some (.fault f)) :
    (f.code ≠ .unknownOpcode ∧ f.context.pc? = some m.pc ∧
      f.context.opcode? = some (.ofInt m.view.word)) ∨
    ∃ g, m.SourceRaises m.view.word g ∧ f = g.withContext m.circumstances := by
  obtain ⟨cause, rfl, hcause | hraises⟩ := exists_cause_of_step hm hsize hin hins h
  · exact .inl ⟨hcause.code_ne, placed_withContext m hcause.pc?_eq hcause.opcode?_eq⟩
  · exact .inr ⟨cause, hraises, rfl⟩

end Steps

/-! ### Forecasts -/

section Forecasts

variable {m : Machine} {size : Nat} (hm : m.WellFormed size) (hsize : size < 0x20000000000000)
  (hin : m.address + 2 ≤ size)

include hm hsize hin

/-- A fault that the random source raises for a word that asks it is that of the step. -/
theorem failure?_step_of_sourceRaises {g : Fault} (h : m.SourceRaises m.view.word g) :
    m.step.failure? = some (.fault (g.withContext m.circumstances)) := by
  obtain ⟨⟨x, kk, hword⟩, hraised⟩ := h
  -- the program counter has moved on, and the source is asked as it was
  have hadvance : m.advance.random.next.1 = .error (.fault g) := hraised
  have hexecute : (m.advance.execute (.random (.ofInt x) (.ofInt kk))).failure? =
      some (.fault g) := failure?_execute_random hadvance _ _
  rw [step_of_matches hm hsize hin hword, Outcome.failure?_withContext]
  exact congrArg (Option.map _) hexecute

/-- A step that fails tells its address and its word, or passes on a fault of the random source
that already tells something else. -/
theorem placed_of_step {f : Fault} (h : m.step.failure? = some (.fault f)) :
    (f.context.pc? = some m.pc ∧ f.context.opcode? = some (.ofInt m.view.word)) ∨
      ∃ g, m.SourceRaises m.view.word g ∧
        (g.context.pc? ≠ none ∨ g.context.opcode? ≠ none) ∧
        f = g.withContext m.circumstances := by
  rcases Instruction.decode?_eq_none_or_matches m.word_lt with ⟨hdecode, -⟩ | ⟨ins, hins⟩
  · rw [step_of_matchesNone hm hsize hin hdecode] at h
    cases h
    exact .inl ⟨rfl, rfl⟩
  · rcases fault_of_step hm hsize hin hins h with ⟨-, hplaced⟩ | ⟨g, hraises, rfl⟩
    · exact .inl hplaced
    · by_cases hknows : g.context.pc? = none ∧ g.context.opcode? = none
      · exact .inl (placed_withContext m hknows.1 hknows.2)
      · exact .inr ⟨g, hraises, Decidable.not_and_iff_or_not.1 hknows, rfl⟩

/-- A step fails for want of an instruction exactly if the text of its word says so or the random
source raises such a fault. -/
theorem unknownOpcode_step_iff :
    (∃ f, m.step.failure? = some (.fault f) ∧ f.code = .unknownOpcode) ↔
      disassemble (.ofInt m.view.word) = "???" ∨
        ∃ g, m.SourceRaises m.view.word g ∧ g.code = .unknownOpcode := by
  rw [Instruction.disassemble_eq_unknown_iff m.word_lt]
  rcases Instruction.decode?_eq_none_or_matches m.word_lt with ⟨hdecode, -⟩ | ⟨ins, hins⟩
  · rw [step_of_matchesNone hm hsize hin hdecode]
    exact iff_of_true ⟨_, rfl, rfl⟩ (.inl hdecode)
  · constructor
    · rintro ⟨f, hf, hcode⟩
      rcases fault_of_step hm hsize hin hins hf with ⟨hne, -⟩ | ⟨g, hraises, rfl⟩
      · exact absurd hcode hne
      · exact .inr ⟨g, hraises, hcode⟩
    · rintro (hnone | ⟨g, hraises, hcode⟩)
      · rw [Instruction.decode?_of_matches hins] at hnone
        cases hnone
      · exact ⟨_, failure?_step_of_sourceRaises hm hsize hin hraises, hcode⟩

end Forecasts

/-- The number of a snapshot's word is that of the word at the program counter, if the memory has
one there. -/
theorem opNumber_snapshot {m : Machine} {size : Nat} (hm : m.WellFormed size) :
    m.snapshot.opNumber =
      if m.address + 2 ≤ size then .ofInt m.view.word else .ofInt (-1) := by
  have hlt := hm.address_lt
  rw [Snapshot.opNumber, op?_snapshot hm.size_eq hm.pc_eq (by omega)]
  by_cases hin : m.address + 2 ≤ size
  · rw [if_pos hin, if_pos (by omega)]
    rfl
  · rw [if_neg hin, if_neg (by omega)]
    rfl

theorem opNumber_eq_iff {m : Machine} {size : Nat} (hm : m.WellFormed size) :
    m.snapshot.opNumber = .ofInt (-1) ↔ size < m.address + 2 := by
  rw [opNumber_snapshot hm]
  by_cases hin : m.address + 2 ≤ size
  · rw [if_pos hin]
    refine iff_of_false (fun h => ?_) (by omega)
    have hword := Number.ofInt_injective h
    omega
  · rw [if_neg hin]
    exact iff_of_true rfl (by omega)

/-- Only the fetch fails without a word. -/
theorem failure?_step_eq_fetchFault_iff {m : Machine} {size : Nat} (hm : m.WellFormed size)
    (hsize : size < 0x20000000000000) :
    m.step.failure? = some (.fault (fetchFault m.pc)) ↔ size < m.address + 2 := by
  by_cases hin : m.address + 2 ≤ size
  · refine iff_of_false (fun h => ?_) (by omega)
    rcases Instruction.decode?_eq_none_or_matches m.word_lt with ⟨hdecode, -⟩ | ⟨ins, hins⟩
    · rw [step_of_matchesNone hm hsize hin hdecode] at h
      cases h
    · exact opcode?_ne_none_of_step hm hsize hin hins h rfl
  · have hout := Nat.lt_of_not_le hin
    rw [step, fetch_of_lt hm hsize hout]
    exact iff_of_true rfl hout

/-! ### Texts -/

/-- What the text of an instruction leaves out plays no part in its execution. -/
theorem execute_shown (m : Machine) (ins : Instruction Nat) :
    m.execute ((ins.shown.map Nat.cast).map .ofInt) =
      m.execute ((ins.map Nat.cast).map .ofInt) := by
  cases ins <;> rfl

/-- Words with the same text are executed alike, unless the text is the one for words without an
instruction. -/
theorem executeWord_eq {word word' : Nat} (hword : word < 0x10000) (hword' : word' < 0x10000)
    (hsame : disassemble (.ofInt word) = disassemble (.ofInt word'))
    (hknown : disassemble (.ofInt word) ≠ "???") (m : Machine) :
    m.executeWord word = m.executeWord word' := by
  have hknown' : disassemble (.ofInt word') ≠ "???" := hsame ▸ hknown
  rw [ne_eq, Instruction.disassemble_eq_unknown_iff hword] at hknown
  rw [ne_eq, Instruction.disassemble_eq_unknown_iff hword'] at hknown'
  obtain ⟨ins, hins⟩ := (Instruction.decode?_eq_none_or_matches hword).resolve_left
    fun h => hknown h.1
  obtain ⟨other, hother⟩ := (Instruction.decode?_eq_none_or_matches hword').resolve_left
    fun h => hknown' h.1
  have hshown := Instruction.shown_eq_of_disassemble_eq hins hother hsame
  rw [executeWord, executeWord, Instruction.decode, Instruction.decode,
    Instruction.decode?_of_matches hins, Instruction.decode?_of_matches hother]
  show m.execute ((ins.map Nat.cast).map .ofInt) = m.execute ((other.map Nat.cast).map .ofInt)
  rw [← execute_shown, hshown, execute_shown]

/-- A snapshot of a well-formed machine can be taken, and its word is `-1` exactly when the fetch
of the next step fails.  Any other word is the one that the step fetches, and tells the word of
every fault of the step and whether this fails for want of an instruction.  The one exception is a
word that asks the random source, where this raises a fault that already tells where it arose, or
itself that of a word without an instruction.  Words that are shown with the same text, and not
as unknown, are executed alike from any state.  Sizes below `2 ^ 53` are those that binary64 numbers
count exactly. -/
theorem snapshot_foretells {m : Machine} {size : Nat} (hm : m.WellFormed size)
    (hsize : size < 0x20000000000000) (logger : Logger) :
    m.observe = .ok m.snapshot ∧
      (m.snapshot.opNumber = .ofInt (-1) ↔ (m.loggedStep logger).failure? =
        some (.fault ⟨.outOfBounds, "program counter outside memory", { pc? := some m.pc }⟩)) ∧
      (m.snapshot.opNumber ≠ .ofInt (-1) → ∃ word : Nat, word < 0x10000 ∧
        m.snapshot.opNumber = .ofInt word ∧ m.fetch = .ok word ∧
        (∀ f, (m.loggedStep logger).failure? = some (.fault f) →
          (f.context.pc? = some m.pc ∧ f.context.opcode? = some (.ofInt word)) ∨
            ∃ g, m.SourceRaises word g ∧ (g.context.pc? ≠ none ∨ g.context.opcode? ≠ none) ∧
              f = g.withContext { pc? := some m.pc, opcode? := some (.ofInt word) }) ∧
        ((∃ f, (m.loggedStep logger).failure? = some (.fault f) ∧ f.code = .unknownOpcode) ↔
          disassemble (.ofInt word) = "???" ∨
            ∃ g, m.SourceRaises word g ∧ g.code = .unknownOpcode)) ∧
      ∀ word word' : Nat, word < 0x10000 → word' < 0x10000 →
        disassemble (.ofInt word) = disassemble (.ofInt word') →
          disassemble (.ofInt word) ≠ "???" →
            ∀ m' : Machine, m'.executeWord word = m'.executeWord word' := by
  refine ⟨hm.traceable.observe_eq, ?_, ?_, ?_⟩
  · rw [failure?_loggedStep, opNumber_eq_iff hm]
    exact (failure?_step_eq_fetchFault_iff hm hsize).symm
  · intro hshown
    have hin : m.address + 2 ≤ size := by
      rw [ne_eq, opNumber_eq_iff hm] at hshown
      omega
    refine ⟨m.view.word, m.word_lt, ?_, fetch_of_le hm hsize hin, ?_, ?_⟩
    · rw [opNumber_snapshot hm, if_pos hin]
    · rw [failure?_loggedStep]
      exact fun f => placed_of_step hm hsize hin
    · rw [failure?_loggedStep]
      exact unknownOpcode_step_iff hm hsize hin
  · intro word word' hword hword' hsame hknown m'
    exact executeWord_eq hword hword' hsame hknown m'

/-- No instruction has the word `FFFF`, which the trace tells before the step fails; and two
shifts of `V0` with other second registers are executed alike. -/
theorem snapshot_foretells_unknown :
    let m := programmed (.replay #[0xAB] 0) [0xFF, 0xFF]
    m.WellFormed Memory.standardSize ∧ m.snapshot.opNumber = .ofInt 0xFFFF ∧
      (∃ f, (m.loggedStep (.recorder true)).failure? = some (.fault f) ∧
        f.code = .unknownOpcode) ∧
      ∀ m' : Machine, m'.executeWord 0x8016 = m'.executeWord 0x8026 := by
  intro m
  have hm : m.WellFormed Memory.standardSize := wellFormed_programmed _ _
  have hshown : m.snapshot.opNumber = .ofInt 0xFFFF := by decide +kernel
  obtain ⟨-, -, hforetells, htexts⟩ := snapshot_foretells hm (by decide) (.recorder true)
  have hfails : ∃ f, (m.loggedStep (.recorder true)).failure? = some (.fault f) ∧
      f.code = .unknownOpcode := by
    obtain ⟨word, -, hword, -, -, hunknown⟩ := hforetells (by decide +kernel)
    have hvalue : (0xFFFF : Int) = word := Number.ofInt_injective (hshown.symm.trans hword)
    obtain rfl : word = 0xFFFF := by omega
    exact hunknown.2 (.inl (by decide +kernel))
  refine ⟨hm, hshown, hfails, ?_⟩
  exact htexts 0x8016 0x8026 (by decide) (by decide) (by decide +kernel) (by decide +kernel)

/-- Where the random source raises the fault of another word that has no instruction, the step fails
with it, although the trace tells an instruction. -/
theorem loggedStep_raising_unforetold :
    let g : Fault := ⟨.unknownOpcode, "from the source", { opcode? := some (.ofInt 0x1234) }⟩
    let m := programmed (raising g) [0xC1, 0x0F]
    m.WellFormed Memory.standardSize ∧ m.snapshot.opNumber = .ofInt 0xC10F ∧
      disassemble (.ofInt 0xC10F) ≠ "???" ∧
      (m.loggedStep (.recorder true)).failure? = some (.fault { g with
        context := { pc? := some (.ofInt 0x200), opcode? := some (.ofInt 0x1234) } }) := by
  intro g m
  refine ⟨wellFormed_programmed _ _, ?_, ?_, ?_⟩
  all_goals decide +kernel

end Chip8.Machine
