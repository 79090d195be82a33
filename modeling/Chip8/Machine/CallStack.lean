/-!
# The call stack

Sixteen slots for return addresses, of which the first `depth` are pending.  A return leaves its
slot as it is, so the slots past the depth still hold what was there; `CallStack.pending` is what
counts.
-/

namespace Chip8

/-- The slots and the count of pending return addresses. -/
structure CallStack where
  slots : Vector UInt16 16
  depth : Fin 17
deriving DecidableEq, Repr

namespace CallStack

/-- The stack without pending return addresses. -/
def empty : CallStack := ⟨Vector.replicate 16 0, 0⟩

/-- The pending return addresses, the most recent one last. -/
def pending (s : CallStack) : List UInt16 := s.slots.toList.take s.depth

/-- The stack with one more return address, if there is room. -/
def push? (s : CallStack) (addr : UInt16) : Option CallStack :=
  if h : s.depth.val < 16 then some ⟨s.slots.set s.depth.val addr, ⟨s.depth.val + 1, by omega⟩⟩
  else none

/-- The most recent return address and the stack without it, if there is one. -/
def pop? (s : CallStack) : Option (UInt16 × CallStack) :=
  if h : 0 < s.depth.val then
    some (s.slots[s.depth.val - 1], ⟨s.slots, ⟨s.depth.val - 1, by omega⟩⟩)
  else none

/-! ### Laws -/

@[simp] theorem pending_empty : empty.pending = [] := rfl

theorem length_pending (s : CallStack) : s.pending.length = s.depth := by
  simp [pending]; omega

theorem pending_push? {s t : CallStack} {addr : UInt16} (h : s.push? addr = some t) :
    t.pending = s.pending ++ [addr] := by
  unfold push? at h
  split at h
  next hd =>
    cases h
    simp only [pending, Vector.toList_set]
    rw [List.take_add_one]
    simp [hd, List.take_set_of_le]
  next => cases h

/-- There is room for another return address unless sixteen are pending. -/
theorem push?_eq_none_iff {s : CallStack} (addr : UInt16) :
    s.push? addr = none ↔ s.pending.length = 16 := by
  have hle : s.depth.val ≤ 16 := Nat.le_of_lt_succ s.depth.isLt
  rw [length_pending, push?]
  split
  next hd =>
    simp only [reduceCtorEq, false_iff]
    omega
  next hd =>
    simp only [true_iff]
    omega

/-- There is a return address to take off unless none is pending. -/
theorem pop?_eq_none_iff {s : CallStack} : s.pop? = none ↔ s.pending = [] := by
  rw [← List.length_eq_zero_iff, length_pending, pop?]
  split
  next hd =>
    simp only [reduceCtorEq, false_iff]
    omega
  next hd =>
    simp only [true_iff]
    omega

theorem pending_pop? {s t : CallStack} {addr : UInt16} (h : s.pop? = some (addr, t)) :
    s.pending = t.pending ++ [addr] := by
  unfold pop? at h
  split at h
  next hd =>
    cases h
    obtain ⟨depth, hdepth⟩ : ∃ depth, s.depth.val = depth + 1 := ⟨s.depth.val - 1, by omega⟩
    have hlast : depth < s.slots.toList.length := by
      rw [Vector.length_toList]
      omega
    simp only [pending, hdepth, Nat.add_sub_cancel]
    rw [List.take_add_one, List.getElem?_eq_getElem hlast]
    rfl
  next => cases h

end CallStack

end Chip8
