import Chip8.Machine.Step
import Chip8.Proofs.Memory
import Mathlib.Logic.Function.Basic

/-!
# The machine as numbers

A `View` is a machine written down in natural numbers, one component for each part of its state:
what the instruction table speaks about.  `Machine.view` is the view of a machine.

A machine is well-formed for a memory size (`Machine.WellFormed`) if its index register and program
counter are 16-bit words and its memory has that many bytes; the types of the other components
leave nothing to ask for.  Nothing of a well-formed machine is lost in its view
(`view_injective`).
-/

namespace Chip8

/-- A machine in natural numbers. -/
@[ext]
structure View where
  /-- The registers; past `VF`, zeros. -/
  v : Nat → Nat
  i : Nat
  pc : Nat
  /-- The slots of the call stack, pending or not; past the last, zeros. -/
  stack : Nat → Nat
  /-- The count of pending return addresses. -/
  sp : Nat
  dt : Nat
  st : Nat
  /-- The bytes of the memory; outside, zeros. -/
  memory : Nat → Nat
  pixel : Fin 64 → Fin 32 → Bool
  version : Nat
  key : Nat → Bool
  random : RandomSource

namespace Machine

/-- The index register as an address. -/
def index (m : Machine) : Nat := m.i.truncate.toNat

/-- The program counter as an address. -/
def address (m : Machine) : Nat := m.pc.truncate.toNat

/-- The view of a machine. -/
def view (m : Machine) : View where
  v k := (m.v[k]?.getD 0).toNat
  i := m.index
  pc := m.address
  stack k := (m.stack.slots[k]?.getD 0).toNat
  sp := m.stack.depth
  dt := m.dt.toNat
  st := m.st.toNat
  memory a := (m.memory.byteAt a).toNat
  pixel := m.display.pixel
  version := m.display.version
  key k := m.keypad.held[k]?.getD false
  random := m.random

/-- The index register and the program counter are words, and the memory has so many bytes. -/
structure WellFormed (m : Machine) (size : Nat) : Prop where
  i_eq : m.i = .ofInt m.index
  index_lt : m.index < 0x10000
  pc_eq : m.pc = .ofInt m.address
  address_lt : m.address < 0x10000
  size_eq : m.memory.size = .ofInt size
  count_eq : m.memory.bytes.size = size

/-- Only the index register, the program counter and the size of the memory count. -/
theorem WellFormed.of_eq {m m' : Machine} {size : Nat} (hm : m.WellFormed size) (hi : m'.i = m.i)
    (hpc : m'.pc = m.pc) (hsize : m'.memory.size = m.memory.size)
    (hcount : m'.memory.bytes.size = m.memory.bytes.size) : m'.WellFormed size := by
  have hindex : m'.index = m.index := by rw [index, index, hi]
  have haddress : m'.address = m.address := by rw [address, address, hpc]
  constructor
  · rw [hi, hindex]
    exact hm.i_eq
  · rw [hindex]
    exact hm.index_lt
  · rw [hpc, haddress]
    exact hm.pc_eq
  · rw [haddress]
    exact hm.address_lt
  · exact hsize.trans hm.size_eq
  · exact hcount.trans hm.count_eq

theorem address_of_start {m : Machine} (hpc : m.pc = start) : m.address = Memory.programStart := by
  simp [address, hpc, start]

/-- A machine that starts is well-formed. -/
theorem wellFormed_of_start {m : Machine} {size : Nat} (hi : m.i = .ofInt 0) (hpc : m.pc = start)
    (hsize : m.memory.size = .ofInt size) (hcount : m.memory.bytes.size = size) :
    m.WellFormed size := by
  have hindex : m.index = 0 := by simp [index, hi]
  have haddress := address_of_start hpc
  constructor
  · rw [hindex]
    exact hi
  · rw [hindex]
    decide
  · rw [haddress]
    exact hpc
  · rw [haddress]
    decide
  · exact hsize
  · exact hcount

/-! ### Components -/

theorem view_v (m : Machine) {k : Nat} (hk : k < 16) : m.view.v k = m.v[k].toNat := by
  simp [view, hk]

theorem view_stack (m : Machine) {k : Nat} (hk : k < 16) :
    m.view.stack k = m.stack.slots[k].toNat := by
  simp [view, hk]

theorem view_key (m : Machine) (k : Fin 16) : m.view.key k = m.keypad.isHeld k := by
  simp [view, Keypad.isHeld]

theorem view_random (m : Machine) : m.view.random = m.random := rfl

/-- A write into a vector, as an update of the function that reads it. -/
theorem update_set {α : Type} {n k : Nat} (xs : Vector α n) (hk : k < n) (a d : α) (f : α → Nat) :
    (fun j => f ((xs.set k a)[j]?.getD d)) =
      Function.update (fun j => f (xs[j]?.getD d)) k (f a) := by
  funext j
  rw [Function.update_apply, Vector.getElem?_set]
  by_cases hj : k = j
  · rw [if_pos hj, if_pos hj.symm]
    simp
  · rw [if_neg hj, if_neg (Ne.symm hj)]

theorem view_set (m : Machine) (k : Fin 16) (b : UInt8) :
    (m.set (some k) b).view = { m.view with v := Function.update m.view.v k b.toNat } := by
  have hv : (m.set (some k) b).view.v = Function.update m.view.v k b.toNat :=
    update_set m.v k.isLt b 0 UInt8.toNat
  rw [← hv]
  rfl

/-! ### Nothing is lost -/

/-- Well-formed machines with the same view are the same. -/
theorem view_injective {m m' : Machine} {size : Nat} (hm : m.WellFormed size)
    (hm' : m'.WellFormed size) (h : m.view = m'.view) : m = m' := by
  -- every component is determined by its part of the view
  have hv : m.v = m'.v := by
    apply Vector.ext
    intro k hk
    exact UInt8.toNat_inj.1 (by simpa [view, hk] using congrFun (congrArg View.v h) k)
  have hi : m.i = m'.i := by
    rw [hm.i_eq, hm'.i_eq, show m.index = m'.index from congrArg View.i h]
  have hpc : m.pc = m'.pc := by
    rw [hm.pc_eq, hm'.pc_eq, show m.address = m'.address from congrArg View.pc h]
  have hslots : m.stack.slots = m'.stack.slots := by
    apply Vector.ext
    intro k hk
    exact UInt16.toNat_inj.1 (by simpa [view, hk] using congrFun (congrArg View.stack h) k)
  have hdepth : m.stack.depth = m'.stack.depth := Fin.ext (congrArg View.sp h)
  have hdt : m.dt = m'.dt := UInt8.toNat_inj.1 (congrArg View.dt h)
  have hst : m.st = m'.st := UInt8.toNat_inj.1 (congrArg View.st h)
  have hbytes : m.memory.bytes = m'.memory.bytes := by
    refine Memory.bytes_eq_of_byteAt (hm.count_eq.trans hm'.count_eq.symm) fun a => ?_
    exact UInt8.toNat_inj.1 (congrFun (congrArg View.memory h) a)
  have hsize : m.memory.size = m'.memory.size := hm.size_eq.trans hm'.size_eq.symm
  have hpixels : m.display.pixels = m'.display.pixels :=
    Display.pixels_eq_of_pixel (congrArg View.pixel h)
  have hversion : m.display.version = m'.display.version := congrArg View.version h
  have hheld : m.keypad.held = m'.keypad.held := by
    apply Vector.ext
    intro k hk
    simpa [view, hk] using congrFun (congrArg View.key h) k
  have hrandom : m.random = m'.random := congrArg View.random h
  obtain ⟨v, i, pc, ⟨slots, depth⟩, dt, st, ⟨bytes, size⟩, ⟨pixels, version⟩, ⟨held⟩, random⟩ := m
  obtain ⟨v', i', pc', ⟨slots', depth'⟩, dt', st', ⟨bytes', size'⟩, ⟨pixels', version'⟩, ⟨held'⟩,
    random'⟩ := m'
  simp only at hv hi hpc hslots hdepth hdt hst hbytes hsize hpixels hversion hheld hrandom
  subst hv hi hpc hslots hdepth hdt hst hbytes hsize hpixels hversion hheld hrandom
  rfl

end Machine

end Chip8
