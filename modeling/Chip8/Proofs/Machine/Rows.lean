import Chip8.Proofs.Machine.Table

/-!
# Rows of the table, registers and control

For the rows that neither draw nor access the memory at the index register: executing the
instruction succeeds and leaves a well-formed machine whose view is the effect of the row
(`Reaches`).  Operands are natural numbers that fit their fields.  Where a row can go wrong, its
lemma assumes that it does not.
-/

namespace Chip8.Machine

open Instruction (effect hazard outside)

/-! ### Numbers -/

theorem toNat_toUInt8 (n : Number) : n.toUInt8.toNat = (n.truncate % 0x100).toNat := by
  rw [Number.toUInt8, Number.toNat_byte]

theorem toNat_toUInt8_natCast {n : Nat} (h : n < 0x100) : (Number.ofInt n).toUInt8.toNat = n := by
  rw [toNat_toUInt8, Number.truncate_ofInt]
  omega

theorem toNat_toUInt16_natCast {n : Nat} (h : n < 0x10000) :
    (Number.ofInt n).toUInt16.toNat = n := by
  rw [Number.toUInt16, Number.truncate_ofInt, UInt16.ofInt, UInt16.toNat_ofNat']
  omega

theorem toNat_sub (a b : UInt8) : (a - b).toNat = (0x100 + a.toNat - b.toNat) % 0x100 := by
  have hb := b.toNat_lt
  rw [UInt8.toNat_sub]
  omega

theorem toNat_flagValue (condition : Bool) :
    (flagValue condition).toNat = if condition then 1 else 0 := by
  cases condition <;> rfl

theorem val_flag : flag.val = 0xF := rfl

theorem get_mk (v : Vector UInt8 16) {k : Nat} (hk : k < 16) : v.get ⟨k, hk⟩ = v[k] := rfl

/-- Sums of addresses are exact before they are cut to 16 bits. -/
theorem addressSum_ofInt {n k : Int} (h : (n + k).natAbs < 0x20000000000000) :
    addressSum (.ofInt n) k = .ofInt ((n + k) % 0x10000) := by
  rw [addressSum, Number.add_ofInt h, Number.truncate_ofInt]

theorem addressSum_eq {n r k : Int} (h : (n + k).natAbs < 0x20000000000000)
    (hr : (n + k) % 0x10000 = r) : addressSum (.ofInt n) k = .ofInt r := by
  rw [addressSum_ofInt h, hr]

/-- The cut changes no sum that is an address. -/
theorem addressSum_eq_add {n k : Int} (h : 0 ≤ n + k ∧ n + k < 0x10000) :
    addressSum (.ofInt n) k = (Number.ofInt n).add (.ofInt k) := by
  rw [Number.add_ofInt (by omega)]
  exact addressSum_eq (by omega) (Int.emod_eq_of_lt h.1 h.2)

theorem register_natCast {x : Nat} (hx : x < 16) :
    register (.ofInt x) = .ok (some (⟨x, hx⟩ : Fin 16)) :=
  register_ofInt ⟨x, hx⟩

theorem registers_natCast {x y : Nat} (hx : x < 16) (hy : y < 16) :
    registers (.ofInt x) (.ofInt y) = .ok (some (⟨x, hx⟩ : Fin 16), some (⟨y, hy⟩ : Fin 16)) :=
  registers_ofInt ⟨x, hx⟩ ⟨y, hy⟩

/-! ### Success -/

/-- The operation succeeds and leaves a well-formed machine with a view. -/
structure Reaches (o : Outcome Machine) (size : Nat) (s : View) : Prop where
  failure?_eq : o.failure? = none
  wellFormed : o.state.WellFormed size
  view_eq : o.state.view = s

theorem Reaches.of_eq {o : Outcome Machine} {size : Nat} {s t : View} (h : Reaches o size s)
    (heq : s = t) : Reaches o size t :=
  heq ▸ h

theorem Reaches.withContext {o : Outcome Machine} {size : Nat} {s : View} (h : Reaches o size s)
    (context : FaultContext) : Reaches (o.withContext context) size s := by
  refine ⟨?_, h.wellFormed, h.view_eq⟩
  rw [Outcome.failure?_withContext, h.failure?_eq]
  rfl

section Writes

variable {m : Machine} {size : Nat} (hm : m.WellFormed size)

include hm

theorem reaches_set (k : Fin 16) (b : UInt8) :
    Reaches { state := m.set (some k) b } size (m.view.put k b.toNat) :=
  ⟨rfl, hm.of_eq rfl rfl rfl rfl, view_set m k b⟩

theorem reaches_set_set (k l : Fin 16) (a b : UInt8) :
    Reaches { state := (m.set (some k) a).set (some l) b } size
      ((m.view.put k a.toNat).put l b.toNat) := by
  refine ⟨rfl, hm.of_eq rfl rfl rfl rfl, ?_⟩
  rw [view_set, view_set]
  rfl

theorem reaches_pc {n : Nat} (hn : n < 0x10000) :
    Reaches { state := { m with pc := .ofInt n } } size { m.view with pc := n } := by
  have haddress : address { m with pc := .ofInt n } = n := by simp [address]
  refine ⟨rfl, ⟨hm.i_eq, hm.index_lt, ?_, ?_, hm.size_eq, hm.count_eq⟩, ?_⟩
  · rw [haddress]
  · rw [haddress]
    exact hn
  · rw [view, haddress]
    rfl

theorem reaches_stack (stack : CallStack) {n : Nat} (hn : n < 0x10000) :
    Reaches { state := { m with stack, pc := .ofInt n } } size
      { m.view with
        stack := fun k => (stack.slots[k]?.getD 0).toNat, sp := stack.depth, pc := n } := by
  have hstack : WellFormed { m with stack } size := hm.of_eq rfl rfl rfl rfl
  exact reaches_pc hstack hn

theorem reaches_i {n : Nat} (hn : n < 0x10000) :
    Reaches { state := { m with i := .ofInt n } } size { m.view with i := n } := by
  have hindex : index { m with i := .ofInt n } = n := by simp [index]
  refine ⟨rfl, ⟨?_, ?_, hm.pc_eq, hm.address_lt, hm.size_eq, hm.count_eq⟩, ?_⟩
  · rw [hindex]
  · rw [hindex]
    exact hn
  · rw [view, hindex]
    rfl

/-- The program counter two on. -/
theorem addressSum_pc (hpc : m.address + 2 < 0x10000) :
    addressSum m.pc 2 = .ofInt ((m.address + 2 : Nat) : Int) := by
  rw [hm.pc_eq]
  exact addressSum_eq (by omega) (by omega)

theorem reaches_skip (hpc : m.address + 2 < 0x10000) (condition : Bool) :
    Reaches { state := m.skipIf condition } size (m.view.skip condition) := by
  cases condition with
  | false => exact ⟨rfl, hm, rfl⟩
  | true =>
    rw [skipIf, if_pos rfl, addressSum_pc hm hpc]
    exact reaches_pc hm hpc

end Writes

/-! ### Arithmetic -/

section Arithmetic

variable {m : Machine} {size : Nat} (hm : m.WellFormed size) {x y kk : Nat} (hx : x < 16)

include hm hx

theorem reaches_setImm (hkk : kk < 0x100) :
    Reaches (m.execute (.setImm (.ofInt x) (.ofInt kk))) size (effect (.setImm x kk) m.view) := by
  rw [execute, register_natCast hx, Outcome.guarded_ok]
  refine (reaches_set hm _ _).of_eq ?_
  rw [effect, toNat_toUInt8_natCast hkk]

theorem reaches_addImm (hkk : kk < 0x100) :
    Reaches (m.execute (.addImm (.ofInt x) (.ofInt kk))) size (effect (.addImm x kk) m.view) := by
  have hv := m.v[x].toNat_lt
  have hsum : ((m.v[x].toNat : Int) + kk).natAbs < 0x20000000000000 := by omega
  have hmod : (((m.v[x].toNat : Int) + kk) % 0x100).toNat = (m.v[x].toNat + kk) % 0x100 := by omega
  rw [execute, register_natCast hx, Outcome.guarded_ok]
  refine (reaches_set hm _ _).of_eq ?_
  rw [effect, view_v m hx, get_some, numberOf, Number.add_ofInt hsum,
    toNat_toUInt8, Number.truncate_ofInt, hmod]

variable (hy : y < 16)

include hy

theorem reaches_copy :
    Reaches (m.execute (.copy (.ofInt x) (.ofInt y))) size (effect (.copy x y) m.view) := by
  rw [execute, registers_natCast hy hx, Outcome.guarded_ok]
  refine (reaches_set hm _ _).of_eq ?_
  rw [effect, view_v m hy]
  rfl

theorem reaches_or :
    Reaches (m.execute (.or (.ofInt x) (.ofInt y))) size (effect (.or x y) m.view) := by
  rw [execute, registers_natCast hx hy, Outcome.guarded_ok]
  refine (reaches_set hm _ _).of_eq ?_
  rw [effect, view_v m hx, view_v m hy, UInt8.toNat_or]
  rfl

theorem reaches_and :
    Reaches (m.execute (.and (.ofInt x) (.ofInt y))) size (effect (.and x y) m.view) := by
  rw [execute, registers_natCast hx hy, Outcome.guarded_ok]
  refine (reaches_set hm _ _).of_eq ?_
  rw [effect, view_v m hx, view_v m hy, UInt8.toNat_and]
  rfl

theorem reaches_xor :
    Reaches (m.execute (.xor (.ofInt x) (.ofInt y))) size (effect (.xor x y) m.view) := by
  rw [execute, registers_natCast hx hy, Outcome.guarded_ok]
  refine (reaches_set hm _ _).of_eq ?_
  rw [effect, view_v m hx, view_v m hy, UInt8.toNat_xor]
  rfl

theorem reaches_add :
    Reaches (m.execute (.add (.ofInt x) (.ofInt y))) size (effect (.add x y) m.view) := by
  rw [execute, registers_natCast hx hy, Outcome.guarded_ok]
  -- the carry is written last, so it is what remains if the sum goes to `VF`
  refine (reaches_set_set hm _ _ _ _).of_eq ?_
  rw [effect, view_v m hx, view_v m hy, toNat_flagValue, val_flag]
  simp [Nat.lt_iff_add_one_le, get_mk]

theorem reaches_sub :
    Reaches (m.execute (.sub (.ofInt x) (.ofInt y))) size (effect (.sub x y) m.view) := by
  rw [execute, registers_natCast hx hy, Outcome.guarded_ok]
  -- the flag is written first, so the difference remains if it goes to `VF`
  refine (reaches_set_set hm _ _ _ _).of_eq ?_
  rw [effect, view_v m hx, view_v m hy, toNat_flagValue, val_flag]
  simp [UInt8.le_iff_toNat_le, toNat_sub, get_mk]

theorem reaches_subFrom :
    Reaches (m.execute (.subFrom (.ofInt x) (.ofInt y))) size (effect (.subFrom x y) m.view) := by
  rw [execute, registers_natCast hx hy, Outcome.guarded_ok]
  refine (reaches_set_set hm _ _ _ _).of_eq ?_
  rw [effect, view_v m hx, view_v m hy, toNat_flagValue, val_flag]
  simp [UInt8.le_iff_toNat_le, toNat_sub, get_mk]

omit hy

theorem reaches_shiftRight :
    Reaches (m.execute (.shiftRight (.ofInt x) (.ofInt y))) size
      (effect (.shiftRight x y) m.view) := by
  rw [execute, register_natCast hx, Outcome.guarded_ok]
  refine (reaches_set_set hm _ _ _ _).of_eq ?_
  rw [effect, view_v m hx, val_flag]
  simp [Nat.shiftRight_eq_div_pow]

theorem reaches_shiftLeft :
    Reaches (m.execute (.shiftLeft (.ofInt x) (.ofInt y))) size
      (effect (.shiftLeft x y) m.view) := by
  rw [execute, register_natCast hx, Outcome.guarded_ok]
  refine (reaches_set_set hm _ _ _ _).of_eq ?_
  rw [effect, view_v m hx, val_flag]
  simp [Nat.shiftRight_eq_div_pow, Nat.shiftLeft_eq]

end Arithmetic

/-! ### Conditions -/

theorem holds_natCast (m : Machine) {x : Nat} (hx : x < 16) (kk : Nat) :
    m.holds (some (⟨x, hx⟩ : Fin 16)) (.ofInt kk) = (m.view.v x == kk) := by
  have hcast : (kk : Int) = m.v[x].toNat ↔ m.v[x].toNat = kk := by omega
  rw [view_v m hx, holds, get?_some, Option.any_some, Number.toInt?_ofInt, Bool.eq_iff_iff,
    beq_iff_eq, beq_iff_eq, Option.some.injEq]
  exact hcast

theorem get?_beq_get? (m : Machine) {x y : Nat} (hx : x < 16) (hy : y < 16) :
    (m.get? (some (⟨x, hx⟩ : Fin 16)) == m.get? (some (⟨y, hy⟩ : Fin 16))) =
      (m.view.v x == m.view.v y) := by
  rw [view_v m hx, view_v m hy, get?_some, get?_some, Bool.eq_iff_iff]
  simp [UInt8.toNat_inj]

theorem isHeld_keyOf (m : Machine) {x : Nat} (hx : x < 16) :
    m.keypad.isHeld (keyOf (m.get (some (⟨x, hx⟩ : Fin 16)))) = m.view.key (m.view.v x % 16) := by
  rw [view_v m hx, get_some]
  exact (view_key m (keyOf m.v[x])).symm

theorem lowestKey?_view (m : Machine) :
    m.view.lowestKey? = m.keypad.firstPressed?.map Fin.val := by
  have hrange : List.range 16 = (List.finRange 16).map Fin.val := by decide
  have hkey : m.view.key ∘ Fin.val = m.keypad.isHeld := funext (view_key m)
  rw [View.lowestKey?, hrange, List.find?_map, hkey, Keypad.firstPressed?]

/-! ### Control -/

section Control

variable {m : Machine} {size : Nat} (hm : m.WellFormed size)

include hm

theorem reaches_jump {addr : Nat} (haddr : addr < 0x1000) :
    Reaches (m.execute (.jump (.ofInt addr))) size (effect (.jump addr) m.view) := by
  rw [execute_jump]
  exact reaches_pc hm (by omega)

theorem reaches_jumpOffset {addr : Nat} (haddr : addr < 0x1000) :
    Reaches (m.execute (.jumpOffset (.ofInt addr))) size (effect (.jumpOffset addr) m.view) := by
  have hv := m.v[0].toNat_lt
  have hsum : ((addr : Int) + m.v[0].toNat).natAbs < 0x20000000000000 := by omega
  rw [execute, numberOf, Number.add_ofInt hsum, ← Int.natCast_add, effect, view_v m (by decide)]
  exact reaches_pc hm (by omega)

theorem reaches_ret (hsp : m.view.sp ≠ 0) :
    Reaches (m.execute .ret) size (effect .ret m.view) := by
  have hdepth : 0 < m.stack.depth.val := Nat.pos_of_ne_zero hsp
  have hpop : m.stack.pop? = some (m.stack.slots[m.stack.depth.val - 1],
      ⟨m.stack.slots, ⟨m.stack.depth.val - 1, by omega⟩⟩) := dif_pos hdepth
  have htop : m.view.stack (m.view.sp - 1) = m.stack.slots[m.stack.depth.val - 1].toNat :=
    view_stack m (k := m.stack.depth.val - 1) (by omega)
  rw [execute, hpop, effect, htop]
  exact reaches_stack hm _ (UInt16.toNat_lt _)

theorem reaches_call {addr : Nat} (haddr : addr < 0x1000) (hsp : m.view.sp ≠ 16) :
    Reaches (m.execute (.call (.ofInt addr))) size (effect (.call addr) m.view) := by
  have hdepth : m.stack.depth.val < 16 := by
    have hne : m.stack.depth.val ≠ 16 := hsp
    omega
  have hpush : m.stack.push? m.pc.toUInt16 = some ⟨m.stack.slots.set m.stack.depth.val
      m.pc.toUInt16, ⟨m.stack.depth.val + 1, by omega⟩⟩ := dif_pos hdepth
  -- the return address is that of the word after the call, where the program counter already is
  have hreturn : m.pc.toUInt16.toNat = m.view.pc := by
    rw [hm.pc_eq, toNat_toUInt16_natCast hm.address_lt]
    rfl
  have hslots := update_set m.stack.slots hdepth m.pc.toUInt16 0 UInt16.toNat
  rw [hreturn] at hslots
  rw [execute, hpush]
  refine (reaches_stack hm _ (by omega)).of_eq ?_
  rw [hslots]
  rfl

theorem reaches_waitKey {x : Nat} (hx : x < 16) (hlow : 2 ≤ m.address) :
    Reaches (m.execute (.waitKey (.ofInt x))) size (effect (.waitKey x) m.view) := by
  have hlt := hm.address_lt
  cases hkey : m.keypad.firstPressed? with
  | none =>
    have hback : addressSum m.pc (-2) = .ofInt ((m.address - 2 : Nat) : Int) := by
      rw [hm.pc_eq]
      exact addressSum_eq (by omega) (by omega)
    rw [execute, hkey, effect, lowestKey?_view, hkey, hback]
    exact reaches_pc hm (by omega)
  | some key =>
    have hvalue : (UInt8.ofNat key).toNat = key := by
      rw [UInt8.toNat_ofNat']
      omega
    rw [execute, hkey, effect, lowestKey?_view, hkey]
    simp only [register_natCast hx, Outcome.guarded_ok]
    exact (reaches_set hm _ _).of_eq (by rw [hvalue]; rfl)

section Skips

variable (hpc : m.address + 2 < 0x10000) {x y kk : Nat} (hx : x < 16)

include hpc hx

theorem reaches_skipIfImm :
    Reaches (m.execute (.skipIfImm (.ofInt x) (.ofInt kk))) size
      (effect (.skipIfImm x kk) m.view) := by
  rw [execute, register_natCast hx, Outcome.guarded_ok, holds_natCast]
  exact reaches_skip hm hpc _

theorem reaches_skipUnlessImm :
    Reaches (m.execute (.skipUnlessImm (.ofInt x) (.ofInt kk))) size
      (effect (.skipUnlessImm x kk) m.view) := by
  rw [execute, register_natCast hx, Outcome.guarded_ok, holds_natCast]
  exact reaches_skip hm hpc _

theorem reaches_skipIfReg (hy : y < 16) :
    Reaches (m.execute (.skipIfReg (.ofInt x) (.ofInt y))) size
      (effect (.skipIfReg x y) m.view) := by
  rw [execute, registers_natCast hx hy, Outcome.guarded_ok, effect, ← get?_beq_get? m hx hy]
  exact reaches_skip hm hpc _

theorem reaches_skipUnlessReg (hy : y < 16) :
    Reaches (m.execute (.skipUnlessReg (.ofInt x) (.ofInt y))) size
      (effect (.skipUnlessReg x y) m.view) := by
  rw [execute, registers_natCast hx hy, Outcome.guarded_ok, effect, bne, ← get?_beq_get? m hx hy]
  exact reaches_skip hm hpc _

theorem reaches_skipIfKey :
    Reaches (m.execute (.skipIfKey (.ofInt x))) size (effect (.skipIfKey x) m.view) := by
  rw [execute, register_natCast hx, Outcome.guarded_ok, isHeld_keyOf]
  exact reaches_skip hm hpc _

theorem reaches_skipUnlessKey :
    Reaches (m.execute (.skipUnlessKey (.ofInt x))) size (effect (.skipUnlessKey x) m.view) := by
  rw [execute, register_natCast hx, Outcome.guarded_ok, isHeld_keyOf]
  exact reaches_skip hm hpc _

end Skips

end Control

/-! ### Timers, the index register and the random source -/

section Index

variable {m : Machine} {size : Nat} (hm : m.WellFormed size)

include hm

theorem reaches_setIndex {addr : Nat} (haddr : addr < 0x1000) :
    Reaches (m.execute (.setIndex (.ofInt addr))) size (effect (.setIndex addr) m.view) :=
  reaches_i hm (by omega)

variable {x : Nat} (hx : x < 16)

include hx

theorem reaches_readDelay :
    Reaches (m.execute (.readDelay (.ofInt x))) size (effect (.readDelay x) m.view) := by
  rw [execute, register_natCast hx, Outcome.guarded_ok]
  exact reaches_set hm _ _

theorem reaches_setDelay :
    Reaches (m.execute (.setDelay (.ofInt x))) size (effect (.setDelay x) m.view) := by
  rw [execute, register_natCast hx, Outcome.guarded_ok, effect, view_v m hx]
  exact ⟨rfl, hm.of_eq rfl rfl rfl rfl, rfl⟩

theorem reaches_setSound :
    Reaches (m.execute (.setSound (.ofInt x))) size (effect (.setSound x) m.view) := by
  rw [execute, register_natCast hx, Outcome.guarded_ok, effect, view_v m hx]
  exact ⟨rfl, hm.of_eq rfl rfl rfl rfl, rfl⟩

theorem reaches_addIndex :
    Reaches (m.execute (.addIndex (.ofInt x))) size (effect (.addIndex x) m.view) := by
  have hv := m.v[x].toNat_lt
  have hi := hm.index_lt
  have hsum : addressSum m.i m.v[x].toNat =
      .ofInt (((m.index + m.v[x].toNat) % 0x10000 : Nat) : Int) := by
    rw [hm.i_eq]
    exact addressSum_eq (by omega) (by omega)
  rw [execute, register_natCast hx, Outcome.guarded_ok, effect, view_v m hx, get?_some,
    Option.elim_some]
  rw [hsum]
  exact reaches_i hm (by omega)

theorem reaches_glyph :
    Reaches (m.execute (.glyph (.ofInt x))) size (effect (.glyph x) m.view) := by
  have haddress :
      Font.glyphAddress m.v[x].toNat = ((0x050 + m.v[x].toNat % 16 * 5 : Nat) : Int) := rfl
  rw [execute, register_natCast hx, Outcome.guarded_ok, effect, view_v m hx, get_some,
    haddress]
  exact reaches_i hm (by omega)

theorem reaches_random {kk : Nat} (hkk : kk < 0x100) {n : Number}
    (hn : m.random.next.1 = .ok n) :
    Reaches (m.execute (.random (.ofInt x) (.ofInt kk))) size (effect (.random x kk) m.view) := by
  obtain ⟨random, hnext⟩ : ∃ random, m.random.next = (.ok n, random) :=
    ⟨m.random.next.2, Prod.ext hn rfl⟩
  have hdrawn : WellFormed { m with random } size := hm.of_eq rfl rfl rfl rfl
  rw [execute, hnext, effect, view_random, hnext]
  simp only [register_natCast hx, Outcome.guarded_ok]
  refine (reaches_set hdrawn _ _).of_eq ?_
  rw [UInt8.toNat_and, toNat_toUInt8, toNat_toUInt8_natCast hkk]
  rfl

end Index

end Chip8.Machine
