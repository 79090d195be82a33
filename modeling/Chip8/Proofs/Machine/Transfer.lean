import Chip8.Proofs.Display.Sprite
import Chip8.Proofs.Machine.Rows
import Chip8.Proofs.Memory

/-!
# Rows of the table, memory and display

The rows that access the memory at the index register, and the row that clears the display.  Such
an access is of a known count of bytes, so that it is granted if it ends inside the memory and is
else a fault that names the index register (`outside`).
-/

namespace Chip8.Machine

open Instruction (effect hazard outside)

/-! ### Accesses at the index register -/

/-- The bytes at the index register. -/
def indexed (m : Machine) (len : Nat) : List UInt8 :=
  (List.range len).map fun k => m.memory.byteAt (m.index + k)

@[simp] theorem length_indexed (m : Machine) (len : Nat) : (m.indexed len).length = len := by
  simp [indexed]

theorem getElem?_indexed (m : Machine) {len k : Nat} (hk : k < len) :
    (m.indexed len)[k]? = some (m.memory.byteAt (m.index + k)) := by
  simp [indexed, hk]

theorem getD_indexed (m : Machine) (len k : Nat) (d : UInt8) :
    (m.indexed len).getD k d = if k < len then m.memory.byteAt (m.index + k) else d := by
  by_cases hk : k < len
  · rw [if_pos hk, List.getD_eq_getElem?_getD, getElem?_indexed m hk, Option.getD_some]
  · have hpast : (m.indexed len)[k]? = none := List.getElem?_eq_none (by rw [length_indexed]; omega)
    rw [if_neg hk, List.getD_eq_getElem?_getD, hpast, Option.getD_none]

section Accesses

variable {m : Machine} {size len : Nat} (hm : m.WellFormed size)

include hm

theorem access_of_le (h : m.index + len ≤ size) : m.access len = .ok m.index := by
  rw [access, hm.i_eq, Memory.locate_natCast hm.size_eq, if_pos h]
  rfl

theorem access_of_lt (h : size < m.index + len) :
    m.access len = .error (outside size m.index len) := by
  rw [access, hm.i_eq, Memory.locate_natCast hm.size_eq, if_neg (by omega), hm.size_eq]
  rfl

theorem excerpt_of_le (h : m.index + len ≤ size) :
    m.excerpt (.ofInt len) = .ok (m.indexed len) := by
  rw [excerpt, Memory.excerpt_ofInt, Memory.slice, hm.i_eq, Memory.locate_natCast hm.size_eq,
    if_pos h]
  simp only [Except.map, Except.mapError]
  rw [Memory.bytesFrom_eq (by rw [hm.count_eq]; exact h)]
  rfl

theorem excerpt_of_lt (h : size < m.index + len) :
    m.excerpt (.ofInt len) = .error (outside size m.index len) := by
  rw [excerpt, Memory.excerpt_ofInt, Memory.slice, hm.i_eq, Memory.locate_natCast hm.size_eq,
    if_neg (by omega), hm.size_eq]
  rfl

end Accesses

/-! ### The display -/

section Display

variable {m : Machine} {size : Nat} (hm : m.WellFormed size)

include hm

theorem reaches_clear : Reaches (m.execute .clear) size (effect .clear m.view) := by
  have hpixel : m.display.clear.pixel = fun _ _ => false := by
    funext px py
    simp [Display.pixel, Display.clear]
  refine ⟨rfl, hm.of_eq rfl rfl rfl rfl, ?_⟩
  rw [effect, ← hpixel]
  rfl

end Display

/-- The one pixel of a sprite that may cover a pixel of the screen, read from the memory. -/
theorem covers_indexed (m : Machine) (x y n : Nat) :
    Display.covers x y ((m.indexed n).map fun b => (b.toNat : Int)) = m.view.sprite x y n := by
  funext px py
  unfold Display.covers View.sprite
  generalize (((px.val : Int) - x) % 64).toNat = col
  generalize (((py.val : Int) - y) % 32).toNat = row
  simp only [List.getElem?_map]
  by_cases hrow : row < n
  · have hlt := (m.memory.byteAt (m.index + row)).toNat_lt
    have hbyte : (((m.memory.byteAt (m.index + row)).toNat : Int) % 0x100).toNat =
        m.view.memory (m.view.i + row) := by
      show _ = (m.memory.byteAt (m.index + row)).toNat
      omega
    rw [getElem?_indexed m hrow, Option.map_some, Option.any_some, Display.rowBit, hbyte]
    simp [hrow]
  · simp [indexed, hrow]

theorem goesOut_xor_iff {before sprite : Fin 64 → Fin 32 → Bool} :
    View.goesOut before (fun px py => before px py ^^ sprite px py) = true ↔
      ∃ px py, before px py = true ∧ sprite px py = true := by
  simp only [View.goesOut, List.any_eq_true, List.mem_finRange, true_and, Bool.and_eq_true,
    Bool.not_eq_true']
  refine exists_congr fun px => exists_congr fun py => and_congr_right fun h => ?_
  rw [h]
  cases sprite px py <;> decide

section Drawing

variable {m : Machine} {size : Nat} (hm : m.WellFormed size) {x y n : Nat}

include hm

theorem spriteRows_eq (h : ¬ (0 < n ∧ size < m.index + n)) :
    m.spriteRows (.ofInt n) = .ok (m.indexed n) := by
  rw [spriteRows, Number.value_ofInt]
  by_cases hn : n = 0
  · subst hn
    rfl
  · have hpos : (0 : Rat) < ((n : Int) : Rat) := by
      exact_mod_cast Nat.pos_of_ne_zero hn
    rw [if_pos hpos]
    exact excerpt_of_le hm (by omega)

theorem reaches_draw (hx : x < 16) (hy : y < 16) (hn : n < 16)
    (h : ¬ (0 < n ∧ size < m.index + n)) :
    Reaches (m.execute (.draw (.ofInt x) (.ofInt y) (.ofInt n))) size
      (effect (.draw x y n) m.view) := by
  let rows := (m.indexed n).map fun b => (b.toNat : Int)
  have hrows : rows.length ≤ 32 := by
    simp only [rows, List.length_map, length_indexed]
    omega
  -- the picture is that of the table, and so is what the flag tells
  have hpixel : (m.display.draw m.v[x].toNat m.v[y].toNat rows).1.pixel = fun px py =>
      m.view.pixel px py ^^ m.view.sprite m.v[x].toNat m.v[y].toNat n px py := by
    funext px py
    rw [Display.pixel_draw m.display _ _ hrows, covers_indexed]
    rfl
  have hcollision : (m.display.draw m.v[x].toNat m.v[y].toNat rows).2 =
      View.goesOut m.view.pixel fun px py =>
        m.view.pixel px py ^^ m.view.sprite m.v[x].toNat m.v[y].toNat n px py := by
    rw [Bool.eq_iff_iff, Display.collision_draw m.display _ _ hrows, goesOut_xor_iff,
      covers_indexed]
    rfl
  rw [execute, spriteRows_eq hm h, registers_natCast hx hy, effect, view_v m hx, view_v m hy]
  refine ⟨rfl, hm.of_eq rfl rfl rfl rfl, ?_⟩
  have hview :
      (set { m with display := (m.display.draw m.v[x].toNat m.v[y].toNat rows).1 } (some flag)
        (flagValue (m.display.draw m.v[x].toNat m.v[y].toNat rows).2)).view =
      m.view.drawn (m.view.sprite m.v[x].toNat m.v[y].toNat n) := by
    rw [view_set, toNat_flagValue, hcollision, View.drawn, ← hpixel]
    rfl
  rw [← hview]
  rfl

end Drawing

/-! ### Registers and memory -/

theorem block_natCast (m : Machine) {x : Nat} (hx : x < 16) :
    m.block (.ofInt x) = m.v.toList.take (x + 1) := by
  have hsum : ((x : Int) + 1).natAbs < 0x20000000000000 := by omega
  have hend : Memory.rangeEnd 16 ((x : Int) + 1) = x + 1 := by
    rw [Memory.rangeEnd, if_neg (by omega)]
    omega
  rw [block, Number.add_ofInt hsum, Number.truncate_ofInt, hend]

theorem length_block (m : Machine) {x : Nat} (hx : x < 16) :
    (m.block (.ofInt x)).length = x + 1 := by
  rw [block_natCast m hx, List.length_take, Vector.length_toList]
  omega

theorem getD_block (m : Machine) {x k : Nat} (hx : x < 16) (hk : k ≤ x) (d : UInt8) :
    (m.block (.ofInt x)).getD k d = m.v[k] := by
  have hlast : k < 16 := by omega
  rw [block_natCast m hx, List.getD_eq_getElem?_getD, List.getElem?_take_of_lt (by omega)]
  simp [hlast]

theorem getElem_replaceFirst (v : Vector UInt8 16) (values : List UInt8) {k : Nat} (hk : k < 16) :
    (replaceFirst v values)[k] = values.getD k v[k] := by
  rw [replaceFirst, Vector.getElem_ofFn]
  rfl

section Transfers

variable {m : Machine} {size : Nat} (hm : m.WellFormed size) {x : Nat} (hx : x < 16)

include hm

theorem reaches_store {data : List UInt8} (h : m.index + data.length ≤ size)
    {memory : Nat → Nat} (hmemory : ∀ a, memory a =
      if m.index ≤ a ∧ a < m.index + data.length then (data.getD (a - m.index) 0).toNat
      else m.view.memory a) :
    Reaches { state := { m with memory := m.memory.store m.index data } } size
      { m.view with memory } := by
  refine ⟨rfl, ?_, ?_⟩
  · exact hm.of_eq rfl rfl (Memory.size_store _ _ _) (Memory.size_bytes_store _ _ _)
  · have hbytes : (fun a => ((m.memory.store m.index data).byteAt a).toNat) = memory := by
      funext a
      rw [Memory.byteAt_store (by rw [hm.count_eq]; exact h), apply_ite UInt8.toNat, hmemory]
      rfl
    rw [← hbytes]
    rfl

include hx

/-- The three digits are stored, or nothing is. -/
theorem execute_storeDecimal :
    m.execute (.storeDecimal (.ofInt x)) =
      if m.index + 3 ≤ size then
        { state := { m with memory := m.memory.store m.index (decimalDigits m.v[x]) } }
      else { state := m, failure? := some (outside size m.index 3) } := by
  rw [execute, register_natCast hx]
  by_cases h : m.index + 3 ≤ size
  · have haccess : m.access 3 = .ok m.index := access_of_le hm h
    rw [if_pos h, haccess]
    rfl
  · have haccess : m.access 3 = .error (outside size m.index 3) :=
      access_of_lt hm (Nat.lt_of_not_le h)
    rw [if_neg h, haccess]
    rfl

/-- The registers are stored, or nothing is. -/
theorem execute_storeRegisters :
    m.execute (.storeRegisters (.ofInt x)) =
      if m.index + x + 1 ≤ size then
        { state := { m with memory := m.memory.store m.index (m.block (.ofInt x)) } }
      else { state := m, failure? := some (outside size m.index (x + 1)) } := by
  rw [execute, length_block m hx]
  by_cases h : m.index + x + 1 ≤ size
  · rw [if_pos h, access_of_le hm h, Outcome.guarded_ok]
  · rw [if_neg h, access_of_lt hm (Nat.lt_of_not_le h), Outcome.guarded_error]

/-- The registers are loaded, or nothing is. -/
theorem execute_loadRegisters :
    m.execute (.loadRegisters (.ofInt x)) =
      if m.index + x + 1 ≤ size then
        { state := { m with v := replaceFirst m.v (m.indexed (x + 1)) } }
      else { state := m, failure? := some (outside size m.index (x + 1)) } := by
  have hsum : ((x : Int) + 1).natAbs < 0x20000000000000 := by omega
  rw [execute, incoming, Number.add_ofInt hsum, ← Int.natCast_add_one]
  by_cases h : m.index + x + 1 ≤ size
  · have hfits : (m.indexed (x + 1)).length ≤ 16 := by
      rw [length_indexed]
      omega
    have hincoming : (do
        let values ← (.ok (m.indexed (x + 1)) : Except Failure (List UInt8))
        if values.length ≤ 16 then return values else throw Storage.overrun) =
        .ok (m.indexed (x + 1)) := if_pos hfits
    rw [if_pos h, excerpt_of_le hm h, hincoming, Outcome.guarded_ok]
  · rw [if_neg h, excerpt_of_lt hm (Nat.lt_of_not_le h)]
    rfl

theorem reaches_storeDecimal (h : m.index + 3 ≤ size) :
    Reaches (m.execute (.storeDecimal (.ofInt x))) size (effect (.storeDecimal x) m.view) := by
  have hlength : (decimalDigits m.v[x]).length = 3 := rfl
  rw [execute_storeDecimal hm hx, if_pos h, effect, view_v m hx]
  refine reaches_store hm (by rwa [hlength]) fun a => ?_
  simp only [Function.update_apply]
  show (if a = m.index + 2 then _ else if a = m.index + 1 then _ else if a = m.index then _
    else m.view.memory a) = _
  rw [hlength]
  -- the three digits lie at the three addresses, and no other address is among them
  by_cases ha : m.index ≤ a ∧ a < m.index + 3
  · rw [if_pos ha]
    obtain rfl | rfl | rfl : a = m.index ∨ a = m.index + 1 ∨ a = m.index + 2 := by omega
    · simp [decimalDigits]
    · simp [decimalDigits]
    · simp [decimalDigits]
  · rw [if_neg ha, if_neg (by omega), if_neg (by omega), if_neg (by omega)]

theorem reaches_storeRegisters (h : m.index + x + 1 ≤ size) :
    Reaches (m.execute (.storeRegisters (.ofInt x))) size (effect (.storeRegisters x) m.view) := by
  have hlength := length_block m hx
  rw [execute_storeRegisters hm hx, if_pos h]
  refine reaches_store hm (by omega) fun a => ?_
  show (if m.index ≤ a ∧ a ≤ m.index + x then m.view.v (a - m.index) else m.view.memory a) = _
  rw [hlength]
  by_cases ha : m.index ≤ a ∧ a ≤ m.index + x
  · have hlast : a - m.index < 16 := by omega
    rw [if_pos ha, if_pos (by omega), view_v m hlast, getD_block m hx (by omega)]
  · rw [if_neg ha, if_neg (by omega)]

theorem reaches_loadRegisters (h : m.index + x + 1 ≤ size) :
    Reaches (m.execute (.loadRegisters (.ofInt x))) size (effect (.loadRegisters x) m.view) := by
  rw [execute_loadRegisters hm hx, if_pos h]
  refine ⟨rfl, hm.of_eq rfl rfl rfl rfl, ?_⟩
  have hv : (fun k => ((replaceFirst m.v (m.indexed (x + 1)))[k]?.getD 0).toNat) =
      fun k => if k ≤ x then m.view.memory (m.view.i + k) else m.view.v k := by
    funext k
    by_cases hk : k < 16
    · rw [Vector.getElem?_eq_getElem hk, Option.getD_some, getElem_replaceFirst _ _ hk,
        getD_indexed, apply_ite UInt8.toNat, view_v m hk]
      simp only [Nat.lt_succ_iff]
      rfl
    · rw [Vector.getElem?_eq_none (by omega), if_neg (by omega)]
      simp [view, hk]
  rw [effect, ← hv]
  rfl

end Transfers

end Chip8.Machine
