import Chip8.Proofs.Machine.Execution

/-!
# A step is a row of the table

What a step of a well-formed machine does is said once, by cases (`step_cases`): the fetch fails,
the word matches no row, the row has a hazard, or the row has its effect.  So a step that succeeds
has exactly the effect of the one row that its word matches.  A step that fails changes nothing
but the program counter and the random source, and this holds for a memory of any size.
-/

namespace Chip8.Machine

open Instruction (effect hazard outside)

/-! ### Notes change nothing -/

@[simp] theorem state_loggedStep (m : Machine) (logger : Logger) :
    (m.loggedStep logger).state = m.step.state := by
  unfold loggedStep
  cases h : m.step.failure? <;> simp [h]

@[simp] theorem failure?_loggedStep (m : Machine) (logger : Logger) :
    (m.loggedStep logger).failure? = m.step.failure? := by
  unfold loggedStep
  cases h : m.step.failure? <;> simp [h]

/-! ### Fetching and moving on -/

section Fetch

variable {m : Machine} {size : Nat} (hm : m.WellFormed size)

include hm

theorem fetch_of_le (hsize : size < 0x20000000000000) (h : m.address + 2 ≤ size) :
    m.fetch = .ok m.view.word :=
  fetch_eq_ok hm.size_eq hm.pc_eq hsize h

theorem fetch_of_lt (hsize : size < 0x20000000000000) (h : size < m.address + 2) :
    m.fetch = .error (fetchFault m.pc) := by
  have hlt := hm.address_lt
  exact fetch_eq_error hm.size_eq hm.pc_eq hsize (by omega) (by omega)

theorem reaches_advance (hlt : m.address + 2 < 0x10000) :
    Reaches { state := m.advance } size m.view.advanced := by
  rw [advance, addressSum_pc hm hlt]
  exact reaches_pc hm hlt

theorem address_advance (hlt : m.address + 2 < 0x10000) : m.advance.address = m.address + 2 :=
  congrArg View.pc (reaches_advance hm hlt).view_eq

end Fetch

/-- The word at the program counter has 16 bits. -/
theorem word_lt (m : Machine) : m.view.word < 0x10000 := m.memory.wordAt_lt m.address

/-- What is fetched has 16 bits. -/
theorem fetch_range {m : Machine} {word : Int} (h : m.fetch = .ok word) :
    0 ≤ word ∧ word < 0x10000 := by
  have hword : ∃ position, word = m.memory.wordAt position := by
    unfold fetch Memory.read16 at h
    split_ifs at h
    cases hlocate : m.memory.locate m.pc 2 with
    | error f =>
      rw [hlocate] at h
      cases h
    | ok position =>
      rw [hlocate] at h
      cases h
      exact ⟨position, rfl⟩
  obtain ⟨position, rfl⟩ := hword
  have hlt := m.memory.wordAt_lt position
  omega

/-- What a step is once the fetch is known. -/
theorem step_of_fetch {m : Machine} {op : Int} (h : m.fetch = .ok op) : m.step = m.proceed op := by
  rw [step, h]

/-! ### Words that have been fetched -/

/-- The circumstances that a step adds to a fault of its instruction. -/
def circumstances (m : Machine) : FaultContext where
  pc? := some m.pc
  opcode? := some (.ofInt m.view.word)

/-- A word is executed as the row of the table that it matches. -/
theorem executeWord_of_matches (m : Machine) {ins : Instruction Nat} {word : Nat}
    (h : ins.Matches word) : m.executeWord word = m.execute ((ins.map Nat.cast).map .ofInt) := by
  rw [executeWord, Instruction.decode, Instruction.decode?_of_matches h]

section Words

variable {m : Machine} {size : Nat} (hm : m.WellFormed size) (hsize : size < 0x20000000000000)
  (hin : m.address + 2 ≤ size)

include hm hsize hin

theorem step_eq : m.step = (m.advance.executeWord m.view.word).withContext m.circumstances := by
  rw [step_of_fetch (fetch_of_le hm hsize hin)]
  rfl

theorem step_of_matchesNone (hnone : Instruction.decode? m.view.word = none) :
    m.step = { state := m.advance, failure? := some (.fault
      ⟨.unknownOpcode, "no instruction matches opcode", m.circumstances⟩) } := by
  have hword : Opcode.word m.view.word = m.view.word := by
    have hlt := m.word_lt
    unfold Opcode.word
    omega
  rw [step_eq hm hsize hin, executeWord, Instruction.decode, hnone]
  simp only [Instruction.unknownOpcode, hword]
  rfl

theorem step_of_matches {ins : Instruction Nat} (hins : ins.Matches m.view.word) :
    m.step = (m.advance.execute ((ins.map Nat.cast).map .ofInt)).withContext m.circumstances := by
  rw [step_eq hm hsize hin, executeWord_of_matches _ hins]

end Words

/-! ### The cases of a step -/

/-- What a step does, by cases. -/
inductive StepCase (m : Machine) (size : Nat) : Prop
  | fetchFails (hout : size < m.address + 2)
      (hstep : m.step = { state := m, failure? := some (.fault (fetchFault m.pc)) })
  | matchesNone (hin : m.address + 2 ≤ size)
      (hnone : ∀ ins : Instruction Nat, ¬ ins.Matches m.view.word)
      (hstep : m.step = { state := m.advance, failure? := some (.fault
        ⟨.unknownOpcode, "no instruction matches opcode", m.circumstances⟩) })
  | fails (hin : m.address + 2 ≤ size) (ins : Instruction Nat) (hmatches : ins.Matches m.view.word)
      (e : Failure) (hhazard : hazard size m.view ins = some e)
      (hfailure : m.step.failure? = some (e.withContext m.circumstances))
  | succeeds (hin : m.address + 2 ≤ size) (ins : Instruction Nat)
      (hmatches : ins.Matches m.view.word) (hhazard : hazard size m.view ins = none)
      (hreaches : Reaches m.step size (ins.effect m.view.advanced))

section Cases

variable {m : Machine} {size : Nat} (hm : m.WellFormed size) (hsize : size + 2 < 0x10000)
  (hin : m.address + 2 ≤ size)

include hm hsize hin

/-- A row without a hazard has its effect. -/
theorem reaches_step_of_matches {ins : Instruction Nat} (hins : ins.Matches m.view.word)
    (h : hazard size m.view ins = none) :
    Reaches m.step size (ins.effect m.view.advanced) := by
  have hadvance := reaches_advance hm (by omega)
  have hwf : m.advance.WellFormed size := hadvance.wellFormed
  have haddress := address_advance hm (by omega)
  -- the instruction runs on the machine past its word, which has the same hazard
  have hhazard : hazard size m.advance.view ins = none := by
    rw [hadvance.view_eq, Instruction.hazard_advanced, h]
  have hreaches := reaches_of_hazard_eq_none hwf (by omega) (by omega) hins.1 hhazard
  rw [hadvance.view_eq] at hreaches
  rw [step_of_matches hm (by omega) hin hins]
  exact hreaches.withContext m.circumstances

/-- The hazard of a row is the failure. -/
theorem failure?_step_of_matches {ins : Instruction Nat} (hins : ins.Matches m.view.word)
    {e : Failure} (h : hazard size m.view ins = some e) :
    m.step.failure? = some (e.withContext m.circumstances) := by
  have hadvance := reaches_advance hm (by omega)
  have hhazard : hazard size m.advance.view ins = some e := by
    rw [hadvance.view_eq, Instruction.hazard_advanced, h]
  have hfailure := failure?_execute hadvance.wellFormed hins.1 hhazard
  rw [step_of_matches hm (by omega) hin hins, Outcome.failure?_withContext, hfailure]
  rfl

end Cases

/-- A step of a well-formed machine is one of the four cases. -/
theorem step_cases {m : Machine} {size : Nat} (hm : m.WellFormed size)
    (hsize : size + 2 < 0x10000) : StepCase m size := by
  by_cases hin : m.address + 2 ≤ size
  · rcases Instruction.decode?_eq_none_or_matches m.word_lt with ⟨hdecode, hnone⟩ | ⟨ins, hins⟩
    · exact .matchesNone hin hnone (step_of_matchesNone hm (by omega) hin hdecode)
    · cases h : hazard size m.view ins with
      | none => exact .succeeds hin ins hins h (reaches_step_of_matches hm hsize hin hins h)
      | some e => exact .fails hin ins hins e h (failure?_step_of_matches hm hsize hin hins h)
  · have hout := Nat.lt_of_not_le hin
    refine .fetchFails hout ?_
    rw [step, fetch_of_lt hm (by omega) hout]

/-! ### Steps that succeed -/

/-- A fresh machine with a few bytes at the start address. -/
def programmed (random : RandomSource) (bytes : List UInt8) : Machine :=
  { assembled .standard random with memory := Memory.standard.store Memory.programStart bytes }

theorem wellFormed_programmed (random : RandomSource) (bytes : List UInt8) :
    (programmed random bytes).WellFormed Memory.standardSize := by
  refine wellFormed_of_start rfl rfl ?_ ?_
  · exact (Memory.size_store _ _ _).trans (Memory.size_zeroed _)
  · exact (Memory.size_bytes_store _ _ _).trans (Memory.size_bytes_zeroed _)

/-- A step that succeeds has the effect of the one row of the table that the word at the program
counter matches, and nothing of the machine after it is left open. -/
theorem loggedStep_of_success {m : Machine} (hm : m.WellFormed Memory.standardSize)
    (logger : Logger) (h : (m.loggedStep logger).failure? = none) :
    ∃ ins : Instruction Nat, ins.Matches m.view.word ∧
      (∀ other : Instruction Nat, other.Matches m.view.word → other = ins) ∧
      (m.loggedStep logger).state.WellFormed Memory.standardSize ∧
      (m.loggedStep logger).state.view = ins.effect m.view.advanced ∧
      (∀ m' : Machine, m'.WellFormed Memory.standardSize →
        m'.view = ins.effect m.view.advanced → m' = (m.loggedStep logger).state) ∧
      (m.loggedStep logger).state.display.version =
        m.display.version + (if ins.changesPicture then 1 else 0) ∧
      (m.loggedStep logger).state.random =
        (if ins.asksRandom then m.random.next.2 else m.random) ∧
      (ins.setsCounter = false → (m.loggedStep logger).state.address = m.address + 2) := by
  rw [failure?_loggedStep] at h
  rw [state_loggedStep]
  cases step_cases hm (by decide) with
  | fetchFails _ hstep =>
    rw [hstep] at h
    cases h
  | matchesNone _ _ hstep =>
    rw [hstep] at h
    cases h
  | fails _ _ _ _ _ hfailure =>
    rw [hfailure] at h
    cases h
  | succeeds _ ins hins _ hreaches =>
    have hview := hreaches.view_eq
    refine ⟨ins, hins, fun other hother => Instruction.matches_unique hother hins,
      hreaches.wellFormed, hview, ?_, ?_, ?_, ?_⟩
    · intro m' hm' hview'
      exact view_injective hm' hreaches.wellFormed (hview'.trans hview.symm)
    · exact (congrArg View.version hview).trans (Instruction.version_effect ins _)
    · exact (congrArg View.random hview).trans (Instruction.random_effect ins _)
    · intro hpc
      exact (congrArg View.pc hview).trans (Instruction.pc_effect hpc _)

/-- An instruction that asks the random source. -/
theorem loggedStep_random_of_success :
    ((programmed (.replay #[0xAB] 0) [0xC1, 0x0F]).loggedStep (.recorder true)).state.view =
      effect (.random 0x1 0x0F) (programmed (.replay #[0xAB] 0) [0xC1, 0x0F]).view.advanced := by
  obtain ⟨ins, -, hunique, -, hview, -⟩ := loggedStep_of_success
    (wellFormed_programmed (.replay #[0xAB] 0) [0xC1, 0x0F]) (.recorder true) (by decide +kernel)
  rwa [← hunique (.random 0x1 0x0F) ⟨by decide, by decide +kernel⟩] at hview

/-! ### Steps that fail -/

/-- Past the fetch, a step that fails has moved the program counter on and has drawn a random byte
at most. -/
theorem state_step_of_failure {m : Machine} {op : Int} (hfetch : m.fetch = .ok op)
    (h : m.step.failure?.isSome) :
    m.step.state = m.advance ∨ m.step.state = { m.advance with random := m.random.next.2 } := by
  have hstep := step_of_fetch hfetch
  rw [hstep, proceed, Outcome.failure?_withContext, Option.isSome_map, executeWord] at h
  rw [hstep, proceed, Outcome.state_withContext, executeWord]
  cases hdecode : Instruction.decode op with
  | error f => exact .inl rfl
  | ok ins =>
    rw [hdecode] at h
    exact state_execute_of_failure h

/-- A step that fails changes nothing but the program counter, which it moves on if it has fetched
a word, and the random source, which it may have asked.  The fetch fails where the word is not
inside the memory; sizes below `2 ^ 53` are those that binary64 numbers count exactly. -/
theorem loggedStep_of_failure {m : Machine} {pc : Nat} (hpc : m.pc = .ofInt pc)
    (hlt : pc < 0x10000) (logger : Logger) (h : (m.loggedStep logger).failure?.isSome) :
    (∃ random, (random = m.random ∨ random = m.random.next.2) ∧
      (m.loggedStep logger).state = { m with
        pc := if m.fetch.isOk then .ofInt ((pc + 2) % 0x10000) else m.pc
        random }) ∧
      ∀ size : Nat, size < 0x20000000000000 → m.memory.size = .ofInt size →
        (m.fetch.isOk ↔ pc + 2 ≤ size) := by
  rw [failure?_loggedStep] at h
  rw [state_loggedStep]
  constructor
  · have hadvance : m.advance = { m with pc := .ofInt ((pc + 2) % 0x10000) } := by
      rw [advance, hpc, addressSum_ofInt (by omega)]
    cases hfetch : m.fetch with
    | error f =>
      refine ⟨m.random, .inl rfl, ?_⟩
      rw [step, hfetch]
      rfl
    | ok op =>
      rcases state_step_of_failure hfetch h with hstate | hstate
      · exact ⟨m.random, .inl rfl, hstate.trans hadvance⟩
      · refine ⟨m.random.next.2, .inr rfl, hstate.trans ?_⟩
        rw [hadvance]
        rfl
  · intro size hsize hmemory
    by_cases hin : pc + 2 ≤ size
    · rw [fetch_eq_ok hmemory hpc hsize hin]
      exact iff_of_true rfl hin
    · rw [fetch_eq_error hmemory hpc hsize (by omega) (by omega)]
      exact iff_of_false Bool.false_ne_true hin

/-- A random source that refuses. -/
theorem loggedStep_refused_of_failure :
    ∃ random, ((programmed (.refusing "no byte") [0xC1, 0x0F]).loggedStep (.recorder true)).state =
      { programmed (.refusing "no byte") [0xC1, 0x0F] with pc := .ofInt 0x202, random } := by
  have hfetch : (programmed (.refusing "no byte") [0xC1, 0x0F]).fetch.isOk = true := by
    decide +kernel
  obtain ⟨⟨random, -, hstate⟩, -⟩ := loggedStep_of_failure
    (m := programmed (.refusing "no byte") [0xC1, 0x0F]) rfl (by decide)
    (.recorder true) (by decide +kernel)
  rw [hfetch] at hstate
  exact ⟨random, hstate⟩

end Chip8.Machine
