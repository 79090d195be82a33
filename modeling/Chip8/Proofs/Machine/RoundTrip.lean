import Chip8.Proofs.Machine.Transfer

/-!
# Transfers there and back

Registers that are stored at the index register and loaded again come back, whatever the registers
held in between, and bytes that are loaded and stored again leave the memory as it is
(`transfers_roundTrip`).  The range of such a transfer has one byte for each register up to `Vx`
and may end with the last byte of the memory; a range that ends beyond it changes nothing.  The
digits of a register are stored in the same way, at three addresses.

Both directions rest on what a byte is after bytes have been stored: those of the range are the
stored ones (`indexed_store`), and storing the bytes that are there changes nothing
(`Memory.store_eq_self`).
-/

namespace Chip8.Machine

open Instruction (outside)

section Transfers

variable {m : Machine} {size : Nat} (hm : m.WellFormed size)

include hm

/-! ### Storing -/

/-- Bytes that are stored at the index register change the bytes of their range alone. -/
theorem byteAt_store_of_not_mem {data : List UInt8} (h : m.index + data.length ≤ size) {a : Nat}
    (ha : ¬ (m.index ≤ a ∧ a < m.index + data.length)) :
    (m.memory.store m.index data).byteAt a = m.memory.byteAt a := by
  rw [Memory.byteAt_store (by rwa [hm.count_eq]), if_neg ha]

/-- Bytes that are stored at the index register are there. -/
theorem byteAt_store_of_lt {data : List UInt8} (h : m.index + data.length ≤ size) {k : Nat}
    (hk : k < data.length) :
    (m.memory.store m.index data).byteAt (m.index + k) = data.getD k 0 := by
  rw [Memory.byteAt_store (by rwa [hm.count_eq]), if_pos (by omega), Nat.add_sub_cancel_left]

/-- The bytes read at the index register are those that were stored there. -/
theorem indexed_store (data : List UInt8) (h : m.index + data.length ≤ size)
    (v : Vector UInt8 16) :
    indexed { m with memory := m.memory.store m.index data, v } data.length = data := by
  apply List.ext_getElem
  · rw [length_indexed]
  · intro k hk hdata
    apply Option.some.inj
    rw [← List.getElem?_eq_getElem hk, getElem?_indexed _ hdata]
    refine congrArg some ((byteAt_store_of_lt hm h hdata).trans ?_)
    simp [hdata]

theorem wellFormed_store (data : List UInt8) (v : Vector UInt8 16) :
    WellFormed { m with memory := m.memory.store m.index data, v } size :=
  hm.of_eq rfl rfl (Memory.size_store _ _ _) (Memory.size_bytes_store _ _ _)

variable {x : Nat} (hx : x < 16)

include hx

/-- Registers that are stored change the memory at their addresses alone. -/
theorem storeRegisters_keeps (h : m.index + x + 1 ≤ size) :
    let o := m.execute (.storeRegisters (.ofInt x))
    o.failure? = none ∧ o.state = { m with memory := o.state.memory } ∧
      o.state.WellFormed size ∧
      ∀ a, ¬ (m.index ≤ a ∧ a ≤ m.index + x) →
        o.state.memory.byteAt a = m.memory.byteAt a := by
  have hlength := length_block m hx
  rw [execute_storeRegisters hm hx, if_pos h]
  refine ⟨rfl, rfl, wellFormed_store hm _ m.v, fun a ha => ?_⟩
  exact byteAt_store_of_not_mem hm (by omega) (by omega)

/-! ### Storing, then loading -/

/-- Registers that have been stored are loaded again into a machine with other registers; those
past the last one stored stay as they are. -/
theorem loadRegisters_storeRegisters (h : m.index + x + 1 ≤ size) (w : Vector UInt8 16) :
    let there : Machine := { (m.execute (.storeRegisters (.ofInt x))).state with v := w }
    let o := there.execute (.loadRegisters (.ofInt x))
    o.failure? = none ∧ o.state = { there with v := o.state.v } ∧
      ∀ k : Fin 16, o.state.v.get k = if k.val ≤ x then m.v.get k else w.get k := by
  have hlength := length_block m hx
  have hindexed := indexed_store hm (m.block (.ofInt x)) (by omega) w
  rw [hlength] at hindexed
  rw [execute_storeRegisters hm hx, if_pos h]
  intro there o
  have ho : o = { state := { there with v := replaceFirst w (there.indexed (x + 1)) } } :=
    (execute_loadRegisters (wellFormed_store hm _ w) hx).trans (if_pos h)
  have hv : o.state.v = replaceFirst w (m.block (.ofInt x)) := by
    rw [ho]
    exact congrArg (replaceFirst w) hindexed
  refine ⟨congrArg Outcome.failure? ho, ?_, fun k => ?_⟩
  · rw [ho]
  · rw [hv]
    refine (getElem_replaceFirst w _ k.isLt).trans ?_
    by_cases hk : k.val ≤ x
    · rw [if_pos hk]
      exact getD_block m hx hk _
    · have hpast : (m.block (.ofInt x))[k.val]? = none := List.getElem?_eq_none (by omega)
      rw [if_neg hk, List.getD_eq_getElem?_getD, hpast]
      rfl

/-! ### Loading, then storing -/

/-- Registers that hold the bytes at the index register can be stored there without a change. -/
theorem storeRegisters_eq_self (h : m.index + x + 1 ≤ size) (w : Vector UInt8 16)
    (hw : ∀ k (hk : k < 16), k ≤ x → w[k] = m.memory.byteAt (m.index + k)) :
    let there : Machine := { m with v := w }
    there.execute (.storeRegisters (.ofInt x)) = { state := there } := by
  intro there
  have hthere : there.WellFormed size := hm.of_eq rfl rfl rfl rfl
  have hlength := length_block there hx
  have hstored : there.memory.store there.index (there.block (.ofInt x)) = there.memory := by
    apply Memory.store_eq_self
    · rw [hlength, hthere.count_eq]
      exact h
    · intro k hk
      rw [hlength] at hk
      rw [getD_block there hx (by omega) 0]
      exact hw k (by omega) (by omega)
  have hfits : there.index + x + 1 ≤ size := h
  rw [execute_storeRegisters hthere hx, if_pos hfits, hstored]

/-- Registers that have been loaded are stored again where they came from. -/
theorem storeRegisters_loadRegisters (h : m.index + x + 1 ≤ size) :
    let there := (m.execute (.loadRegisters (.ofInt x))).state
    let o := there.execute (.storeRegisters (.ofInt x))
    (m.execute (.loadRegisters (.ofInt x))).failure? = none ∧
      there = { m with v := there.v } ∧ o.failure? = none ∧ o.state = there := by
  have hloaded : ∀ k (hk : k < 16), k ≤ x →
      (replaceFirst m.v (m.indexed (x + 1)))[k] = m.memory.byteAt (m.index + k) := by
    intro k hk hkx
    rw [getElem_replaceFirst, getD_indexed, if_pos (Nat.lt_succ_of_le hkx)]
  have hstore := storeRegisters_eq_self hm hx h _ hloaded
  rw [execute_loadRegisters hm hx, if_pos h]
  exact ⟨rfl, rfl, congrArg Outcome.failure? hstore, congrArg Outcome.state hstore⟩

/-! ### Digits -/

/-- The digits of a register are stored at three addresses. -/
theorem storeDecimal_digits (h : m.index + 3 ≤ size) :
    let o := m.execute (.storeDecimal (.ofInt x))
    let digit k := (o.state.memory.byteAt (m.index + k)).toNat
    o.failure? = none ∧ o.state = { m with memory := o.state.memory } ∧
      o.state.WellFormed size ∧
      (∀ a, ¬ (m.index ≤ a ∧ a ≤ m.index + 2) →
        o.state.memory.byteAt a = m.memory.byteAt a) ∧
      digit 0 ≤ 9 ∧ digit 1 ≤ 9 ∧ digit 2 ≤ 9 ∧
      100 * digit 0 + 10 * digit 1 + digit 2 = m.v[x].toNat := by
  have hlt := m.v[x].toNat_lt
  have hlength : (decimalDigits m.v[x]).length = 3 := rfl
  rw [execute_storeDecimal hm hx, if_pos h]
  intro o digit
  have hdigit {k : Nat} (hk : k < 3) : digit k = ((decimalDigits m.v[x]).getD k 0).toNat :=
    congrArg UInt8.toNat (byteAt_store_of_lt hm (by omega) (by omega))
  have hhundreds : digit 0 = m.v[x].toNat / 100 :=
    (hdigit (by decide)).trans (UInt8.toNat_div _ _)
  have htens : digit 1 = m.v[x].toNat / 10 % 10 :=
    (hdigit (by decide)).trans (UInt8.toNat_mod _ _)
  have hones : digit 2 = m.v[x].toNat % 10 :=
    (hdigit (by decide)).trans (UInt8.toNat_mod _ _)
  refine ⟨rfl, rfl, wellFormed_store hm _ m.v, fun a ha => ?_, ?_⟩
  · exact byteAt_store_of_not_mem hm (by omega) (by omega)
  · omega

end Transfers

/-! ### There and back -/

/-- Where the registers up to `Vx` fit into the memory at the index register, storing them,
changing all registers and loading brings them back, and loading and storing leaves the memory as
it is.  Where three bytes fit, the digits of `Vx` are stored.  An access that does not fit is a
fault and changes nothing. -/
theorem transfers_roundTrip {m : Machine} {size : Nat} (hm : m.WellFormed size) (x : Fin 16) :
    let store := execute (.storeRegisters (.ofInt x.val))
    let load := execute (.loadRegisters (.ofInt x.val))
    let storeDigits := execute (.storeDecimal (.ofInt x.val))
    (m.index + x.val + 1 ≤ size →
      ((store m).failure? = none ∧ (store m).state = { m with memory := (store m).state.memory } ∧
        (store m).state.WellFormed size ∧
        ∀ a, ¬ (m.index ≤ a ∧ a ≤ m.index + x.val) →
          (store m).state.memory.byteAt a = m.memory.byteAt a) ∧
      (∀ w,
        let there : Machine := { (store m).state with v := w }
        (load there).failure? = none ∧
          (load there).state = { there with v := (load there).state.v } ∧
          ∀ k : Fin 16, (load there).state.v.get k =
            if k.val ≤ x.val then m.v.get k else w.get k) ∧
      (let there := (load m).state
       (load m).failure? = none ∧ there = { m with v := there.v } ∧
          (store there).failure? = none ∧ (store there).state = there)) ∧
    (m.index + 3 ≤ size →
      let digit k := ((storeDigits m).state.memory.byteAt (m.index + k)).toNat
      (storeDigits m).failure? = none ∧
        (storeDigits m).state = { m with memory := (storeDigits m).state.memory } ∧
        (storeDigits m).state.WellFormed size ∧
        (∀ a, ¬ (m.index ≤ a ∧ a ≤ m.index + 2) →
          (storeDigits m).state.memory.byteAt a = m.memory.byteAt a) ∧
        digit 0 ≤ 9 ∧ digit 1 ≤ 9 ∧ digit 2 ≤ 9 ∧
        100 * digit 0 + 10 * digit 1 + digit 2 = (m.v.get x).toNat) ∧
    (size < m.index + x.val + 1 →
      store m = { state := m, failure? := some (outside size m.index (x.val + 1)) } ∧
        load m = { state := m, failure? := some (outside size m.index (x.val + 1)) }) ∧
    (size < m.index + 3 →
      storeDigits m = { state := m, failure? := some (outside size m.index 3) }) := by
  refine ⟨fun h => ⟨?_, ?_, ?_⟩, ?_, fun h => ⟨?_, ?_⟩, fun h => ?_⟩
  · exact storeRegisters_keeps hm x.isLt h
  · exact loadRegisters_storeRegisters hm x.isLt h
  · exact storeRegisters_loadRegisters hm x.isLt h
  · exact storeDecimal_digits hm x.isLt
  · exact (execute_storeRegisters hm x.isLt).trans (if_neg (Nat.not_le.2 h))
  · exact (execute_loadRegisters hm x.isLt).trans (if_neg (Nat.not_le.2 h))
  · exact (execute_storeDecimal hm x.isLt).trans (if_neg (Nat.not_le.2 h))

/-- A machine with a memory of five bytes, at the last three of them. -/
def atLastBytes : Machine :=
  { assembled (Memory.zeroed 5) (.replay #[0xAB] 0) with
    v := Vector.ofFn fun k => UInt8.ofNat (255 - k.val), i := .ofInt 2 }

/-- Three registers fit to the last byte, and come back from there; a fourth one does not. -/
theorem transfers_roundTrip_atLastBytes :
    let there : Machine := { (execute (.storeRegisters (.ofInt 2)) atLastBytes).state with
      v := Vector.replicate 16 0 }
    let back := execute (.loadRegisters (.ofInt 2)) there
    back.failure? = none ∧ back.state.v.get 2 = 253 ∧ back.state.v.get 3 = 0 ∧
      execute (.storeRegisters (.ofInt 3)) atLastBytes =
        { state := atLastBytes, failure? := some (outside 5 2 4) } := by
  have hwf : atLastBytes.WellFormed 5 := by
    constructor <;> decide +kernel
  have hindex : atLastBytes.index = 2 := by decide +kernel
  obtain ⟨hfits, -⟩ := transfers_roundTrip hwf 2
  obtain ⟨-, -, houtside, -⟩ := transfers_roundTrip hwf 3
  obtain ⟨-, hback, -⟩ := hfits (by rw [hindex]; decide)
  obtain ⟨hsuccess, -, hv⟩ := hback (Vector.replicate 16 0)
  obtain ⟨hstore, -⟩ := houtside (by rw [hindex]; decide)
  rw [hindex] at hstore
  refine ⟨hsuccess, (hv 2).trans (by decide +kernel), (hv 3).trans (by decide +kernel), hstore⟩

end Chip8.Machine
