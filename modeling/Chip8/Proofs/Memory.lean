import Chip8.Memory
import Mathlib.Tactic.SplitIfs

/-!
# Bytes of the memory

What a byte of the memory is after an operation: storing changes the bytes of its range and no
other (`byteAt_store`), so storing the bytes that are there changes nothing (`store_eq_self`), and
a range that is read is the list of its bytes (`bytesFrom_eq`).  In a memory whose size is a
natural number, the granted accesses are those that end inside (`locate_natCast`).
-/

namespace Chip8.Memory

/-! ### Storing -/

theorem byteAt_setIfInBounds (m : Memory) (position a : Nat) (b : UInt8)
    (h : position < m.bytes.size) :
    byteAt { m with bytes := m.bytes.setIfInBounds position b } a =
      if position = a then b else m.byteAt a := by
  unfold byteAt
  simp only [Array.getD_eq_getD_getElem?, Array.getElem?_setIfInBounds]
  split_ifs <;> rfl

/-- Storing changes the bytes of its range and no other. -/
theorem byteAt_store {m : Memory} {position : Nat} {data : List UInt8}
    (h : position + data.length ≤ m.bytes.size) (a : Nat) :
    (m.store position data).byteAt a =
      if position ≤ a ∧ a < position + data.length then data.getD (a - position) 0
      else m.byteAt a := by
  induction data generalizing m position with
  | nil => rw [store, if_neg (by simp)]
  | cons b rest ih =>
    rw [List.length_cons] at h
    rw [store, ih (by simp; omega), byteAt_setIfInBounds _ _ _ _ (by omega), List.length_cons]
    by_cases ha : position = a
    · subst ha
      rw [if_neg (by omega), if_pos rfl, if_pos (by omega), Nat.sub_self, List.getD_cons_zero]
    · rw [if_neg ha]
      by_cases hrange : position + 1 ≤ a ∧ a < position + 1 + rest.length
      · obtain ⟨k, rfl⟩ : ∃ k, a = position + 1 + k := ⟨a - (position + 1), by omega⟩
        rw [if_pos hrange, if_pos (by omega), Nat.add_sub_cancel_left,
          show position + 1 + k - position = k + 1 by omega, List.getD_cons_succ]
      · rw [if_neg hrange, if_neg (by omega)]

theorem bytes_eq_of_byteAt {m m' : Memory} (hcount : m.bytes.size = m'.bytes.size)
    (h : ∀ a, m.byteAt a = m'.byteAt a) : m.bytes = m'.bytes := by
  apply Array.ext hcount
  intro a ha ha'
  simpa [byteAt, ha, ha'] using h a

/-- Storing the bytes that are there already changes nothing. -/
theorem store_eq_self {m : Memory} {position : Nat} {data : List UInt8}
    (hfits : position + data.length ≤ m.bytes.size)
    (h : ∀ k < data.length, data.getD k 0 = m.byteAt (position + k)) :
    m.store position data = m := by
  have hbytes : (m.store position data).bytes = m.bytes := by
    refine bytes_eq_of_byteAt (size_bytes_store _ _ _) fun a => ?_
    rw [byteAt_store hfits]
    by_cases ha : position ≤ a ∧ a < position + data.length
    · obtain ⟨k, rfl⟩ : ∃ k, a = position + k := ⟨a - position, by omega⟩
      rw [if_pos ha, Nat.add_sub_cancel_left, h k (by omega)]
    · rw [if_neg ha]
  have hsize : (m.store position data).size = m.size := size_store _ _ _
  show Memory.mk (m.store position data).bytes (m.store position data).size = m
  rw [hbytes, hsize]

/-! ### Reading -/

/-- A word has 16 bits. -/
theorem wordAt_lt (m : Memory) (position : Nat) : m.wordAt position < 0x10000 := by
  have hhigh := (m.byteAt position).toNat_lt
  have hlow := (m.byteAt (position + 1)).toNat_lt
  unfold wordAt
  omega

/-- A range inside the memory is the list of its bytes. -/
theorem bytesFrom_eq {m : Memory} {position len : Nat} (h : position + len ≤ m.bytes.size) :
    m.bytesFrom position len = (List.range len).map fun k => m.byteAt (position + k) := by
  have hstop : rangeEnd m.bytes.size (position + len) = position + len := by
    unfold rangeEnd
    rw [if_neg (by omega)]
    omega
  unfold bytesFrom
  rw [hstop]
  apply List.ext_getElem
  · simp
    omega
  · intro k hk hk'
    simp only [List.length_map, List.length_range] at hk'
    simp [byteAt, Array.getElem?_eq_getElem (show position + k < m.bytes.size by omega)]

/-! ### Accesses -/

/-- An access at a natural number is granted if it ends within reach. -/
theorem locate_ofInt (m : Memory) (position len : Nat) :
    m.locate (.ofInt position) len =
      if (position + len : Int) ≤ m.reach then .ok position
      else .error (accessFault m.size (.ofInt position) (.ofInt len)) := by
  unfold locate
  rw [Number.toInt?_ofInt]
  by_cases h : (position + len : Int) ≤ m.reach
  · rw [if_pos h]
    exact if_pos (by omega)
  · rw [if_neg h]
    exact if_neg (by omega)

/-- In a memory whose size is a natural number, an access is granted if it ends inside. -/
theorem locate_natCast {m : Memory} {size : Nat} (hsize : m.size = .ofInt size)
    (position len : Nat) :
    m.locate (.ofInt position) len =
      if position + len ≤ size then .ok position
      else .error (accessFault m.size (.ofInt position) (.ofInt len)) := by
  have hends : (position + len : Int) ≤ size ↔ position + len ≤ size := by omega
  simp only [locate_ofInt, reach_of_size hsize, hends]

/-- An access that is not granted is told with its address and its length. -/
theorem eq_accessFault_of_locate {m : Memory} {addr : Number} {len : Int} {f : Fault}
    (h : m.locate addr len = .error f) : f = accessFault m.size addr (.ofInt len) := by
  unfold locate at h
  split at h
  next a _ =>
    split_ifs at h
    exact (Except.error.inj h).symm
  next => exact (Except.error.inj h).symm

theorem eq_accessFault_of_excerpt {m : Memory} {addr len : Number} {f : Fault}
    (h : m.excerpt addr len = .error f) : ∃ len', f = accessFault m.size addr len' := by
  unfold excerpt at h
  split at h
  next n _ =>
    cases hlocate : m.locate addr n with
    | error g =>
      rw [slice, hlocate] at h
      obtain rfl : g = f := Except.error.inj h
      exact ⟨.ofInt n, eq_accessFault_of_locate hlocate⟩
    | ok position =>
      rw [slice, hlocate] at h
      cases h
  next => exact ⟨len, (Except.error.inj h).symm⟩
  next a _ _ =>
    simp only at h
    split_ifs at h
    exact ⟨len, (Except.error.inj h).symm⟩

/-- Bytes are loaded at a natural number if they end within reach. -/
theorem load_ofInt (m : Memory) (position : Nat) (data : List UInt8) :
    m.load (.ofInt position) data =
      if (position + data.length : Int) ≤ m.reach then .ok (m.store position data)
      else .error (accessFault m.size (.ofInt position) (.ofInt data.length)) := by
  rw [load, locate_ofInt]
  split_ifs <;> rfl

/-- In a memory whose size is a natural number, bytes are loaded if they end inside. -/
theorem load_natCast {m : Memory} {size : Nat} (hsize : m.size = .ofInt size) (position : Nat)
    (data : List UInt8) :
    m.load (.ofInt position) data =
      if position + data.length ≤ size then .ok (m.store position data)
      else .error (accessFault m.size (.ofInt position) (.ofInt data.length)) := by
  have hends : (position + data.length : Int) ≤ size ↔ position + data.length ≤ size := by omega
  simp only [load_ofInt, reach_of_size hsize, hends]

theorem byteAt_clear (m : Memory) (a : Nat) : m.clear.byteAt a = 0 := by
  unfold byteAt clear
  by_cases ha : a < m.bytes.size
  · simp [ha]
  · simp [ha]

end Chip8.Memory
