import Chip8.Fault

/-!
# Circumstances in turn

A fault passes several places on its way out, and each may add what it knows of the circumstances
(`Fault.inTurn`).  The places need not be told apart: the fault ends up as one that arose with
everything known at once, where of each circumstance the first report counts
(`FaultContext.firstKnown`).  So it does not matter how the reports are grouped, nor whether one is
made again, and the message, which is written anew each time, says where the fault arose at most
once (`FaultContext.note`).  The headline is `inTurn_firstKnown`.
-/

namespace Chip8

namespace FaultContext

/-! ### Several circumstances together -/

/-- The circumstances that a list of reports tells, the first report of each counting. -/
def firstKnown (reports : List FaultContext) : FaultContext where
  pc? := reports.findSome? (·.pc?)
  opcode? := reports.findSome? (·.opcode?)
  addr? := reports.findSome? (·.addr?)

theorem firstKnown_append (first second : List FaultContext) :
    firstKnown (first ++ second) = (firstKnown first).orElse (firstKnown second) := by
  simp only [firstKnown, orElse, List.findSome?_append]

theorem firstKnown_singleton (c : FaultContext) : firstKnown [c] = c := by
  simp [firstKnown]

theorem firstKnown_cons (c : FaultContext) (reports : List FaultContext) :
    firstKnown (c :: reports) = c.orElse (firstKnown reports) := by
  rw [← List.singleton_append, firstKnown_append, firstKnown_singleton]

/-- Reports may be put together in groups first. -/
theorem firstKnown_flatten (groups : List (List FaultContext)) :
    firstKnown (groups.map firstKnown) = firstKnown groups.flatten := by
  induction groups with
  | nil => rfl
  | cons group groups ih =>
    rw [List.map_cons, firstKnown_cons, ih, List.flatten_cons, firstKnown_append]

/-- Also those that come first may be put together. -/
theorem firstKnown_regroup (first : List FaultContext) (groups : List (List FaultContext)) :
    firstKnown (firstKnown first :: groups.map firstKnown) =
      firstKnown (first ++ groups.flatten) := by
  rw [firstKnown_cons, firstKnown_flatten, firstKnown_append]

/-! ### Reports made again -/

/-- What was known first is not news. -/
theorem orElse_orElse_self (a b : FaultContext) : a.orElse (b.orElse a) = a.orElse b := by
  have hor (x? y? : Option Number) : x?.or (y?.or x?) = x?.or y? := by
    cases x? with
    | none => rw [Option.none_or, Option.none_or, Option.or_none]
    | some x => rw [Option.some_or, Option.some_or]
  simp only [orElse, hor]

theorem firstKnown_orElse_of_mem {c : FaultContext} {reports : List FaultContext}
    (h : c ∈ reports) : (firstKnown reports).orElse c = firstKnown reports := by
  induction reports with
  | nil => cases h
  | cons d reports ih =>
    -- What is told again is the first report, or one that the others contain.
    rw [firstKnown_cons, orElse_assoc]
    rcases List.mem_cons.1 h with rfl | h
    · exact orElse_orElse_self c (firstKnown reports)
    · rw [ih h]

theorem firstKnown_orElse_of_subset {again reports : List FaultContext} (h : again ⊆ reports) :
    (firstKnown reports).orElse (firstKnown again) = firstKnown reports := by
  induction again with
  | nil => exact orElse_empty (firstKnown reports)
  | cons c again ih =>
    obtain ⟨hc, hagain⟩ := List.cons_subset.1 h
    rw [firstKnown_cons, ← orElse_assoc, firstKnown_orElse_of_mem hc, ih hagain]

/-- Reports that are made again, with others in between, tell nothing. -/
theorem firstKnown_insert {before again : List FaultContext} (h : again ⊆ before)
    (after : List FaultContext) :
    firstKnown (before ++ again ++ after) = firstKnown (before ++ after) := by
  rw [firstKnown_append, firstKnown_append, firstKnown_orElse_of_subset h, firstKnown_append]

/-! ### What a message says of them -/

/-- What a message says about where a fault arose. -/
def note (c : FaultContext) : String :=
  match c.pc?, c.opcode? with
  | none, none => ""
  | some pc, none => " (PC=" ++ fourDigits pc ++ ")"
  | none, some op => " (OP=" ++ fourDigits op ++ ")"
  | some pc, some op => " (PC=" ++ fourDigits pc ++ " OP=" ++ fourDigits op ++ ")"

end FaultContext

namespace Fault

/-- The fault after reports of its circumstances, one after the other. -/
def inTurn (f : Fault) (reports : List FaultContext) : Fault := reports.foldl withContext f

/-! ### A fault and its circumstances -/

theorem withContext_withContext (f : Fault) (a b : FaultContext) :
    (f.withContext a).withContext b = f.withContext (a.orElse b) := by
  rw [withContext, withContext, withContext, FaultContext.orElse_assoc]

/-- Reports one after the other are worth as much as all of them at once. -/
theorem inTurn_eq (f : Fault) (reports : List FaultContext) :
    f.inTurn reports = f.withContext (.firstKnown reports) := by
  -- The first report becomes part of the fault that is told the others.
  induction reports generalizing f with
  | nil =>
    show f = { f with context := f.context.orElse {} }
    rw [FaultContext.orElse_empty]
  | cons c reports ih =>
    calc f.inTurn (c :: reports)
        = (f.withContext c).inTurn reports := rfl
      _ = (f.withContext c).withContext (.firstKnown reports) := ih (f.withContext c)
      _ = f.withContext (.firstKnown (c :: reports)) := by
        rw [withContext_withContext, FaultContext.firstKnown_cons]

/-- A fault that is told of its circumstances is the fault that arose in them. -/
theorem inTurn_mk (code : FaultCode) (detail : String) (initial : FaultContext)
    (reports : List FaultContext) :
    inTurn ⟨code, detail, initial⟩ reports = ⟨code, detail, .firstKnown (initial :: reports)⟩ := by
  rw [inTurn_eq, withContext, FaultContext.firstKnown_cons]

/-- The message of a fault is its name, its detail and, once, where it arose. -/
theorem message_eq (f : Fault) :
    f.message = f.code.name ++ ": " ++ f.detail ++ f.context.note := by
  obtain ⟨code, detail, pc?, opcode?, addr?⟩ := f
  rw [← String.toList_inj]
  cases pc? <;> cases opcode? <;> simp [message, FaultContext.place, FaultContext.note]

end Fault

/-- A fault is taken for one of its own kind, or of any kind, and for no other. -/
theorem Failure.isFault_fault_iff (f : Fault) (code? : Option FaultCode) :
    (Failure.fault f).isFault code? = true ↔ code? = none ∨ code? = some f.code := by
  cases code? with
  | none => simp [isFault]
  | some code =>
    show (f.code == code) = true ↔ _
    rw [beq_iff_eq, eq_comm]
    simp only [reduceCtorEq, false_or, Option.some.injEq]

/-! ### The headline -/

/-- Reports of its circumstances, one after the other, make a fault the one that arose with the
first of each known, whose message tells of them once.  It stays of its kind, and only of that.  The
reports may be put together in groups, those that come first into the fault itself, and any may be
made again at any later place. -/
theorem Fault.inTurn_firstKnown (code : FaultCode) (detail : String) (initial : FaultContext)
    (reports : List FaultContext) :
    let f : Fault := ⟨code, detail, initial⟩
    let told := f.inTurn reports
    told = ⟨code, detail, .firstKnown (initial :: reports)⟩ ∧
      told.isLoadFault = f.isLoadFault ∧
      told.message =
        code.name ++ ": " ++ detail ++ (FaultContext.firstKnown (initial :: reports)).note ∧
      (∀ (first : List FaultContext) (groups : List (List FaultContext)),
        first ++ groups.flatten = reports →
        inTurn ⟨code, detail, .firstKnown (initial :: first)⟩ (groups.map .firstKnown) = told) ∧
      (∀ before again after, before ++ after = reports → again ⊆ initial :: before →
        f.inTurn (before ++ again ++ after) = told) ∧
      ∀ code?, (Failure.fault told).isFault code? = true ↔ code? = none ∨ code? = some code := by
  intro f told
  have htold : told = ⟨code, detail, .firstKnown (initial :: reports)⟩ :=
    inTurn_mk code detail initial reports
  refine ⟨htold, ?_, ?_, ?_, ?_, ?_⟩
  · rw [htold]
    rfl
  · rw [htold, message_eq]
  · rintro first groups rfl
    rw [htold, inTurn_mk, FaultContext.firstKnown_regroup, List.cons_append]
  · rintro before again after rfl hagain
    have hinsert := FaultContext.firstKnown_insert hagain after
    rw [htold, inTurn_mk]
    exact congrArg (Fault.mk code detail) hinsert
  · intro code?
    rw [Failure.isFault_fault_iff, htold]

/-- Reports of an address zero and of a word, some of them empty, late or made twice. -/
theorem Fault.inTurn_firstKnown_zero :
    let f : Fault := ⟨.outOfBounds, "bad read", { addr? := some (.ofInt (-1)) }⟩
    let fetched : FaultContext := { pc? := some (.ofInt 0) }
    let late : FaultContext :=
      { pc? := some (.ofInt 0x300), opcode? := some (.ofInt 0xD013), addr? := some (.ofInt 5) }
    let told : Fault :=
      ⟨.outOfBounds, "bad read", ⟨some (.ofInt 0), some (.ofInt 0xD013), some (.ofInt (-1))⟩⟩
    f.inTurn [fetched, {}, late] = told ∧
      (f.inTurn [fetched, {}, late]).message = "OutOfBounds: bad read (PC=0000 OP=D013)" ∧
      f.inTurn [.firstKnown [fetched, {}], .firstKnown [late]] = told ∧
      f.inTurn [fetched, {}, fetched, f.context, late] = told := by
  intro f fetched late told
  obtain ⟨htold, -, hmessage, hgroups, hagain, -⟩ :=
    inTurn_firstKnown .outOfBounds "bad read" f.context [fetched, {}, late]
  refine ⟨htold, ?_, ?_, ?_⟩
  · exact hmessage.trans (by decide +kernel)
  · exact (hgroups [] [[fetched, {}], [late]] rfl).trans htold
  · refine (hagain [fetched, {}] [fetched, f.context] [late] rfl ?_).trans htold
    simp

end Chip8
