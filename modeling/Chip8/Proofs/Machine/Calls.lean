import Chip8.Proofs.Machine.Run

/-!
# Calls and returns

A run opens calls and returns from them.  `openCalls` follows this by the instructions that were
executed, without a look at the call stack: a call that succeeds adds the address of the next word
to a list, and a return that succeeds takes the last one off.  Along every run of a machine with
the standard memory, the call stack up to its depth is this list (`pending_run`).

What calls and returns do is then said on the list (`CallDiscipline`).  A list that starts with
some pending calls goes on to do so as long as the depth stays above them (`isPrefix_run`).  So a
return that is the first to come back to the depth of a call goes behind that call, whatever was
done in between.
-/

namespace Chip8

/-! ### Rows that call and return -/

namespace View

/-- The pending return addresses, the most recent one last. -/
def pending (s : View) : List Nat := (List.range s.sp).map s.stack

theorem pending_push (s : View) (addr pc : Nat) :
    pending { s with stack := Function.update s.stack s.sp addr, sp := s.sp + 1, pc } =
      s.pending ++ [addr] := by
  have hbelow : ∀ k ∈ List.range s.sp, Function.update s.stack s.sp addr k = s.stack k := by
    intro k hk
    exact Function.update_of_ne (Nat.ne_of_lt (List.mem_range.1 hk)) _ _
  simp only [pending, List.range_succ, List.map_append, List.map_singleton,
    Function.update_self, List.map_congr_left hbelow]

theorem pending_pop (s : View) (pc : Nat) :
    pending { s with sp := s.sp - 1, pc } = s.pending.dropLast := by
  simp only [pending, ← List.map_dropLast]
  congr 1
  cases s.sp with
  | zero => rfl
  | succ depth => rw [List.range_succ, List.dropLast_concat, Nat.add_sub_cancel]

theorem pending_skip (s : View) (condition : Bool) : (s.skip condition).pending = s.pending := by
  cases condition <;> rfl

end View

namespace Instruction

theorem matches_call {word : Nat} (h : word / 0x1000 = 0x2) :
    (call (word % 0x1000)).Matches word := by
  refine ⟨?_, ?_⟩
  · simp only [map, InRange]
    omega
  · simp only [map, encode]
    omega

theorem matches_ret {word : Nat} (h : word = 0x00EE) : ret.Matches word :=
  ⟨trivial, by simp [map, encode, h]⟩

/-- A call adds the address where the program counter is, a return takes the last one off, and no
other row changes what is pending. -/
theorem pending_effect {ins : Instruction Nat} {word : Nat} (h : ins.Matches word) (s : View) :
    (ins.effect s).pending =
      if word / 0x1000 = 0x2 then s.pending ++ [s.pc]
      else if word = 0x00EE then s.pending.dropLast
      else s.pending := by
  split_ifs with hcall hret
  · obtain rfl := matches_unique h (matches_call hcall)
    exact s.pending_push _ _
  · obtain rfl := matches_unique h (matches_ret hret)
    exact s.pending_pop _
  · obtain ⟨hrange, hword⟩ := h
    cases ins
    case call addr =>
      simp only [map, InRange, encode] at hrange hword
      omega
    case ret =>
      simp only [map, encode] at hword
      omega
    case skipIfImm | skipUnlessImm | skipIfReg | skipUnlessReg | skipIfKey | skipUnlessKey =>
      exact s.pending_skip _
    case waitKey =>
      rw [effect]
      cases s.lowestKey? <;> rfl
    all_goals rfl

end Instruction

namespace Machine

open Instruction (effect hazard)

/-! ### Pending calls -/

/-- The pending return addresses, the most recent one last. -/
def pending (m : Machine) : List Nat := m.stack.pending.map UInt16.toNat

@[simp] theorem length_pending (m : Machine) : m.pending.length = m.stack.depth := by
  rw [pending, List.length_map, CallStack.length_pending]

theorem pending_view (m : Machine) : m.view.pending = m.pending := by
  have hdepth : m.view.pending.length = m.stack.depth := by simp [View.pending, view]
  apply List.ext_getElem
  · rw [hdepth, length_pending]
  · intro k hk hk'
    have hslot : k < 16 := by omega
    simp only [pending, CallStack.pending, View.pending, List.getElem_map, List.getElem_range,
      List.getElem_take, Vector.getElem_toList]
    exact view_stack m hslot

/-- The word at the program counter is a call. -/
def AtCall (m : Machine) : Prop :=
  m.address + 2 ≤ 0x1000 ∧ m.memory.wordAt m.address / 0x1000 = 0x2

/-- The word at the program counter is the return. -/
def AtReturn (m : Machine) : Prop :=
  m.address + 2 ≤ 0x1000 ∧ m.memory.wordAt m.address = 0x00EE

instance (m : Machine) : Decidable m.AtCall := inferInstanceAs (Decidable (_ ∧ _))

instance (m : Machine) : Decidable m.AtReturn := inferInstanceAs (Decidable (_ ∧ _))

/-- What an event makes of the list of open calls. -/
def track (logger : Logger) (m : Machine) (calls : List Nat) : Event → List Nat
  | .step =>
    if (m.loggedStep logger).failure?.isSome then calls
    else if m.AtCall then calls ++ [m.address + 2]
    else if m.AtReturn then calls.dropLast
    else calls
  | .reset => []
  | _ => calls

/-- The calls that are open after events, given those that were before: for each the address of
the word behind it, the most recent one last. -/
def openCalls (logger : Logger) : List Event → Machine → List Nat → List Nat
  | [], _, calls => calls
  | event :: rest, m, calls =>
    openCalls logger rest (m.perform logger event).state (m.track logger calls event)

/-! ### The call stack is the list of open calls -/

/-- Only steps and resets touch the call stack. -/
theorem stack_perform {event : Event} (hstep : event ≠ .step) (hreset : event ≠ .reset)
    (m : Machine) (logger : Logger) : (m.perform logger event).state.stack = m.stack := by
  cases event with
  | step => exact absurd rfl hstep
  | reset => exact absurd rfl hreset
  | tick => rfl
  | setKey key pressed =>
    obtain ⟨keypad, hstate⟩ := perform_of_setsKeys logger m (.setKey key pressed) rfl
    rw [hstate]
  | keyEvent keymap code pressed =>
    obtain ⟨keypad, hstate⟩ := perform_of_setsKeys logger m (.keyEvent keymap code pressed) rfl
    rw [hstate]
  | load rom =>
    rw [perform, loadProgram]
    cases Rom.validate rom.length with
    | error f => rfl
    | ok _ => cases m.memory.load start rom <;> rfl

theorem stack_reset (m : Machine) : m.reset.state.stack = .empty := by
  simp only [reset]
  split
  · rfl
  · rfl

theorem pending_step {m : Machine} (hm : m.Bounded) (logger : Logger) :
    m.step.state.pending = m.track logger m.pending .step := by
  rw [track, failure?_loggedStep]
  cases step_cases hm.wellFormed (by decide) with
  | fetchFails _ hstep =>
    rw [hstep]
    rfl
  | matchesNone _ _ hstep =>
    rw [hstep]
    rfl
  | fails hin _ _ _ _ hfailure =>
    have hfails : m.step.failure?.isSome := by rw [hfailure]; rfl
    rw [if_pos hfails]
    -- a failed step moves the program counter, and may draw a random byte
    rcases state_step_of_failure (fetch_of_le hm.wellFormed (by decide) hin) hfails with hs | hs
    · rw [hs]
      rfl
    · rw [hs]
      rfl
  | succeeds hin ins hins _ hreaches =>
    have hcall : m.AtCall ↔ m.view.word / 0x1000 = 0x2 := and_iff_right hin
    have hreturn : m.AtReturn ↔ m.view.word = 0x00EE := and_iff_right hin
    have hbefore : m.view.advanced.pending = m.pending := m.pending_view
    rw [hreaches.failure?_eq, ← pending_view, hreaches.view_eq, Instruction.pending_effect hins,
      hbefore]
    simp only [Option.isSome_none, Bool.false_eq_true, if_false, hcall, hreturn]
    rfl

theorem pending_perform {m : Machine} (hm : m.Bounded) (logger : Logger) (event : Event) :
    (m.perform logger event).state.pending = m.track logger m.pending event := by
  cases event with
  | step =>
    rw [perform, state_loggedStep]
    exact pending_step hm logger
  | reset =>
    rw [perform, pending, stack_reset]
    rfl
  | _ =>
    rw [pending, stack_perform (by simp) (by simp)]
    rfl

/-- After a run, the call stack is the list of open calls. -/
theorem pending_run (logger : Logger) (events : List Event) {m : Machine} (hm : m.Bounded) :
    (m.run logger events).pending = openCalls logger events m m.pending := by
  induction events generalizing m with
  | nil => rfl
  | cons event rest ih =>
    rw [openCalls, ← pending_perform hm logger event]
    exact ih (bounded_perform hm logger event)

/-! ### What calls and returns do -/

section Steps

variable {m : Machine} (hm : m.Bounded) (logger : Logger)

include hm

theorem step_call_of_lt (h : m.AtCall) (hroom : m.pending.length < 16) :
    m.step.failure? = none ∧ m.step.state.pending = m.pending ++ [m.address + 2] ∧
      m.step.state.address = m.memory.wordAt m.address % 0x1000 := by
  have hins : (Instruction.call (m.view.word % 0x1000)).Matches m.view.word :=
    Instruction.matches_call h.2
  have hnone : hazard Memory.standardSize m.view (.call (m.view.word % 0x1000)) = none := by
    refine if_neg ?_
    show m.stack.depth.val ≠ 16
    rw [← length_pending]
    omega
  have hreaches := reaches_step_of_matches hm.wellFormed (by decide) h.1 hins hnone
  refine ⟨hreaches.failure?_eq, ?_, congrArg View.pc hreaches.view_eq⟩
  rw [← pending_view, hreaches.view_eq, ← pending_view]
  exact m.view.advanced.pending_push _ _

theorem step_call_of_full (h : m.AtCall) (hfull : m.pending.length = 16) :
    m.step.failure? =
      some (.fault ⟨.stackOverflow, "call nesting exceeds 16 levels", m.circumstances⟩) := by
  have hins : (Instruction.call (m.view.word % 0x1000)).Matches m.view.word :=
    Instruction.matches_call h.2
  have hsome : hazard Memory.standardSize m.view (.call (m.view.word % 0x1000)) =
      some (.fault ⟨.stackOverflow, "call nesting exceeds 16 levels", {}⟩) := by
    refine if_pos ?_
    show m.stack.depth.val = 16
    rw [← length_pending, hfull]
  exact failure?_step_of_matches hm.wellFormed (by decide) h.1 hins hsome

theorem step_return_of_concat (h : m.AtReturn) {rest : List Nat} {addr : Nat}
    (hpending : m.pending = rest ++ [addr]) :
    m.step.failure? = none ∧ m.step.state.pending = rest ∧ m.step.state.address = addr := by
  have hins : Instruction.ret.Matches m.view.word := Instruction.matches_ret h.2
  have hdepth : m.view.sp = rest.length + 1 := by
    show m.stack.depth.val = _
    rw [← length_pending, hpending, List.length_append, List.length_singleton]
  have hnone : hazard Memory.standardSize m.view .ret = none := by
    refine if_neg ?_
    omega
  have hreaches := reaches_step_of_matches hm.wellFormed (by decide) h.1 hins hnone
  refine ⟨hreaches.failure?_eq, ?_, ?_⟩
  · have hpop := m.view.advanced.pending_pop (m.view.stack (m.view.sp - 1))
    have hbefore : m.view.advanced.pending = rest ++ [addr] := m.pending_view.trans hpending
    rw [← pending_view, hreaches.view_eq]
    exact hpop.trans (by rw [hbefore, List.dropLast_concat])
  · -- the slot below the depth is the last entry of the list
    have hlast : m.view.pending[rest.length]? = some addr := by
      rw [pending_view, hpending, List.getElem?_concat_length]
    have htop : m.view.stack rest.length = addr := by
      simpa [View.pending, hdepth] using hlast
    have haddress : m.step.state.address = m.view.stack (m.view.sp - 1) :=
      congrArg View.pc hreaches.view_eq
    rw [haddress, hdepth, Nat.add_sub_cancel, htop]

theorem step_return_of_nil (h : m.AtReturn) (hpending : m.pending = []) :
    m.step.failure? =
      some (.fault ⟨.stackUnderflow, "return with empty stack", m.circumstances⟩) := by
  have hins : Instruction.ret.Matches m.view.word := Instruction.matches_ret h.2
  have hsome : hazard Memory.standardSize m.view .ret =
      some (.fault ⟨.stackUnderflow, "return with empty stack", {}⟩) := by
    refine if_pos ?_
    show m.stack.depth.val = 0
    rw [← length_pending, hpending, List.length_nil]
  exact failure?_step_of_matches hm.wellFormed (by decide) h.1 hins hsome

end Steps

/-! ### Coming back from a call -/

/-- Pending calls stay at the start of the list, unless a return comes back below the last of
them. -/
theorem isPrefix_track {m : Machine} {logger : Logger} {calls outer : List Nat} {addr : Nat}
    (h : outer ++ [addr] <+: calls) {event : Event} (hreset : event ≠ .reset)
    (hlength : (m.track logger calls event).length ≠ outer.length) :
    outer ++ [addr] <+: m.track logger calls event := by
  cases event with
  | reset => exact absurd rfl hreset
  | step =>
    rw [track] at hlength ⊢
    split_ifs at hlength ⊢ with hfails hcall hreturn
    · exact h
    · exact h.trans (List.prefix_append _ _)
    · -- a return takes the last of these calls off only where nothing is above it
      obtain ⟨inner, rfl⟩ := h
      rcases List.eq_nil_or_concat inner with rfl | ⟨inner, top, rfl⟩
      · rw [List.append_nil, List.dropLast_concat] at hlength
        exact absurd rfl hlength
      · rw [List.concat_eq_append, ← List.append_assoc, List.dropLast_concat]
        exact List.prefix_append _ _
    · exact h
  | _ => exact h

theorem atReturn_of_length_track_lt {m : Machine} {logger : Logger} {calls : List Nat}
    (h : (m.track logger calls .step).length < calls.length) :
    m.AtReturn ∧ m.track logger calls .step = calls.dropLast := by
  rw [track] at h ⊢
  split_ifs at h ⊢ with hfails hcall hreturn
  · omega
  · rw [List.length_append] at h
    omega
  · exact ⟨hreturn, rfl⟩
  · omega

/-- Pending calls stay at the start of the list as long as the depth stays above them. -/
theorem isPrefix_run {logger : Logger} {outer : List Nat} {addr : Nat} (events : List Event)
    {m : Machine} (hm : m.Bounded) (h : outer ++ [addr] <+: m.pending)
    (hreset : Event.reset ∉ events)
    (hdepth : ∀ k ≤ events.length,
      (m.run logger (events.take k)).stack.depth.val ≠ outer.length) :
    outer ++ [addr] <+: (m.run logger events).pending := by
  -- the prefix is the invariant, and the depth after the first event keeps it
  induction events generalizing m with
  | nil => exact h
  | cons event rest ih =>
    have hfirst := hdepth 1 (by simp)
    have hne : event ≠ .reset := fun heq => hreset (heq ▸ List.mem_cons_self)
    rw [← length_pending] at hfirst
    have hpending := pending_perform hm logger event
    have hnext : outer ++ [addr] <+: (m.perform logger event).state.pending := by
      rw [hpending]
      refine isPrefix_track h hne ?_
      rw [← hpending]
      exact hfirst
    refine ih (bounded_perform hm logger event) hnext (fun hmem => ?_) fun k hk => ?_
    · exact hreset (List.mem_cons_of_mem _ hmem)
    · exact hdepth (k + 1) (Nat.succ_le_succ hk)

/-- The first step that comes back to the depth before a call is a return behind that call. -/
theorem address_of_comesBack {m : Machine} (hm : m.Bounded) {logger : Logger}
    {outer : List Nat} {addr : Nat} (h : m.pending = outer ++ [addr]) {between : List Event}
    (hreset : Event.reset ∉ between)
    (hdepth : ∀ k ≤ between.length,
      (m.run logger (between.take k)).stack.depth.val ≠ outer.length)
    (hback : (m.run logger between).step.state.stack.depth.val = outer.length) :
    (m.run logger between).AtReturn ∧ (m.run logger between).step.failure? = none ∧
      (m.run logger between).step.state.address = addr := by
  have hlast := bounded_run logger between hm
  have hprefix : outer ++ [addr] <+: m.pending := ⟨[], by rw [List.append_nil, h]⟩
  obtain ⟨inner, hinner⟩ := isPrefix_run between hm hprefix hreset hdepth
  rw [← length_pending, pending_step hlast logger] at hback
  have hshorter : ((m.run logger between).track logger (m.run logger between).pending
      .step).length < (m.run logger between).pending.length := by
    rw [hback, ← hinner, List.length_append, List.length_append, List.length_singleton]
    omega
  obtain ⟨hreturn, htrack⟩ := atReturn_of_length_track_lt hshorter
  -- nothing is left above the call
  have hnil : inner = [] := by
    rw [htrack, ← hinner, List.length_dropLast, List.length_append, List.length_append,
      List.length_singleton] at hback
    exact List.eq_nil_of_length_eq_zero (by omega)
  rw [hnil, List.append_nil] at hinner
  obtain ⟨hsuccess, -, haddress⟩ := step_return_of_concat hlast hreturn hinner.symm
  exact ⟨hreturn, hsuccess, haddress⟩

/-! ### Runs -/

/-- What calls and returns do to a machine whose open calls are a list. -/
structure CallDiscipline (logger : Logger) (m : Machine) (calls : List Nat) : Prop where
  /-- The slots of the call stack up to its depth are the list, in order. -/
  pending_eq : m.pending = calls
  depth_eq : m.stack.depth.val = calls.length
  length_le : calls.length ≤ 16
  /-- A call adds the address of the word behind it, if there is room. -/
  call_of_lt : m.AtCall → calls.length < 16 →
    (m.loggedStep logger).failure? = none ∧
      (m.loggedStep logger).state.pending = calls ++ [m.address + 2] ∧
      (m.loggedStep logger).state.address = m.memory.wordAt m.address % 0x1000
  call_of_full : m.AtCall → calls.length = 16 →
    (m.loggedStep logger).failure? =
        some (.fault ⟨.stackOverflow, "call nesting exceeds 16 levels", m.circumstances⟩) ∧
      (m.loggedStep logger).state.pending = calls
  /-- A return takes the last entry off and goes there, if there is one. -/
  return_of_concat : m.AtReturn → ∀ rest addr, calls = rest ++ [addr] →
    (m.loggedStep logger).failure? = none ∧ (m.loggedStep logger).state.pending = rest ∧
      (m.loggedStep logger).state.address = addr
  return_of_nil : m.AtReturn → calls = [] →
    (m.loggedStep logger).failure? =
        some (.fault ⟨.stackUnderflow, "return with empty stack", m.circumstances⟩) ∧
      (m.loggedStep logger).state.pending = []
  /-- Nothing else but a reset changes the slots up to the depth. -/
  pending_of_other : ∀ event : Event, event ≠ .reset →
    (event = .step → ¬ m.AtCall ∧ ¬ m.AtReturn) → (m.perform logger event).state.pending = calls
  /-- After a call that succeeds, the first step that comes back to its depth is a return behind
  it, whatever was done in between. -/
  comesBack : m.AtCall → (m.loggedStep logger).failure? = none →
    ∀ between : List Event, Event.reset ∉ between →
      (∀ k ≤ between.length,
        ((m.loggedStep logger).state.run logger (between.take k)).stack.depth ≠ m.stack.depth) →
      let last := (m.loggedStep logger).state.run logger between
      (last.loggedStep logger).state.stack.depth = m.stack.depth →
        last.AtReturn ∧ (last.loggedStep logger).failure? = none ∧
          (last.loggedStep logger).state.address = m.address + 2

theorem Bounded.callDiscipline {m : Machine} (hm : m.Bounded) (logger : Logger) :
    m.CallDiscipline logger m.pending where
  pending_eq := rfl
  depth_eq := m.length_pending.symm
  length_le := by
    rw [length_pending]
    omega
  call_of_lt hcall hroom := by
    rw [failure?_loggedStep, state_loggedStep]
    exact step_call_of_lt hm hcall hroom
  call_of_full hcall hfull := by
    have hfailure := step_call_of_full hm hcall hfull
    rw [failure?_loggedStep, state_loggedStep, pending_step hm logger, track,
      failure?_loggedStep, hfailure]
    exact ⟨rfl, rfl⟩
  return_of_concat hreturn rest addr h := by
    rw [failure?_loggedStep, state_loggedStep]
    exact step_return_of_concat hm hreturn h
  return_of_nil hreturn h := by
    have hfailure := step_return_of_nil hm hreturn h
    rw [failure?_loggedStep, state_loggedStep, pending_step hm logger, track,
      failure?_loggedStep, hfailure]
    exact ⟨rfl, h⟩
  pending_of_other event hreset hother := by
    rw [pending_perform hm logger event]
    cases event with
    | reset => exact absurd rfl hreset
    | step =>
      obtain ⟨hcall, hreturn⟩ := hother rfl
      rw [track, if_neg hcall, if_neg hreturn, ite_self]
    | _ => rfl
  comesBack := by
    intro hcall hsuccess between hreset hdepth last hback
    rw [failure?_loggedStep] at hsuccess
    simp only [last, state_loggedStep, failure?_loggedStep] at hdepth hback ⊢
    have hroom : m.pending.length < 16 := by
      by_contra hfull
      have hfailure := step_call_of_full hm hcall (by rw [length_pending] at hfull ⊢; omega)
      rw [hsuccess] at hfailure
      cases hfailure
    obtain ⟨-, hpending, -⟩ := step_call_of_lt hm hcall hroom
    refine address_of_comesBack (bounded_step hm) hpending hreset (fun k hk heq => ?_) ?_
    · exact hdepth k hk (Fin.ext (heq.trans m.length_pending))
    · exact (congrArg Fin.val hback).trans m.length_pending.symm

/-- Whatever a host does to a machine with the standard memory, its call stack is the list of the
calls that are open, and calls and returns go by this list. -/
theorem run_callDiscipline (random : RandomSource) (logger : Logger) (events : List Event) :
    ((powerOn .standard random).state.run logger events).CallDiscipline logger
      (openCalls logger events (powerOn .standard random).state []) := by
  have hstart := bounded_powerOn random
  have hempty : (powerOn .standard random).state.pending = [] := by
    rw [pending, powerOn, stack_reset]
    rfl
  rw [← hempty, ← pending_run logger events hstart]
  exact (bounded_run logger events hstart).callDiscipline logger

/-- A machine that is about to call a subroutine, which returns at once. -/
def calling : Machine :=
  (powerOn .standard (.replay #[0xAB] 0)).state.run (.recorder true)
    [.load [0x22, 0x04, 0x00, 0x00, 0x00, 0xEE]]

/-- The timers tick before the subroutine returns. -/
theorem run_callDiscipline_calling :
    calling.pending = [] ∧ calling.AtCall ∧ calling.address = 0x200 ∧
      let last := (calling.loggedStep (.recorder true)).state.run (.recorder true) [.tick]
      (last.loggedStep (.recorder true)).state.address = 0x202 := by
  have hcall : calling.AtCall := by decide +kernel
  have haddress : calling.address = 0x200 := by decide +kernel
  have hdiscipline := run_callDiscipline (.replay #[0xAB] 0) (.recorder true)
    [.load [0x22, 0x04, 0x00, 0x00, 0x00, 0xEE]]
  refine ⟨hdiscipline.pending_eq, hcall, haddress, ?_⟩
  obtain ⟨hsuccess, -, -⟩ := hdiscipline.call_of_lt hcall (by decide)
  obtain ⟨-, -, hback⟩ := hdiscipline.comesBack hcall hsuccess [.tick] (by simp)
    (by decide +kernel) (by decide +kernel)
  exact hback.trans (by rw [← calling, haddress])

end Machine

end Chip8
