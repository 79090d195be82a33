import Chip8.Proofs.Machine.Run

/-!
# A machine that starts

What a machine is after a reset, in a memory of any size that has room for the font (`restarted`).
With the standard memory this, and what it is after a program is loaded into it then, is written
down in full (`started`): of what was there before only the version of the display and the random
source are left (`reset_eq_started`, `loadProgram_started`).
-/

namespace Chip8

namespace Memory

/-- A memory of a size with given bytes. -/
def ofImage (size : Nat) (image : Nat → UInt8) : Memory where
  bytes := Array.ofFn fun a : Fin size => image a
  size := .ofInt size

theorem size_bytes_ofImage (size : Nat) (image : Nat → UInt8) :
    (ofImage size image).bytes.size = size :=
  Array.size_ofFn

theorem byteAt_ofImage (image : Nat → UInt8) {size a : Nat} (ha : a < size) :
    (ofImage size image).byteAt a = image a := by
  have ha' : a < (ofImage size image).bytes.size := by rwa [size_bytes_ofImage]
  rw [byteAt, Array.getD_eq_getD_getElem?, Array.getElem?_eq_getElem ha', Option.getD_some]
  exact Array.getElem_ofFn ha'

/-- The size and the bytes of a memory determine it. -/
theorem eq_ofImage {m : Memory} {size : Nat} (hsize : m.size = .ofInt size)
    (hcount : m.bytes.size = size) {image : Nat → UInt8}
    (h : ∀ a < size, m.byteAt a = image a) : m = ofImage size image := by
  have hbytes : m.bytes = (ofImage size image).bytes := by
    refine bytes_eq_of_byteAt (by rw [hcount, size_bytes_ofImage]) fun a => ?_
    by_cases ha : a < size
    · rw [h a ha, byteAt_ofImage image ha]
    · simp [byteAt, hcount, size_bytes_ofImage, ha]
  obtain ⟨bytes, bound⟩ := m
  simp only at hsize hbytes
  rw [hsize, hbytes]
  rfl

end Memory

namespace Machine

/-- The bytes of the memory when a program starts: the font from `0x050` on, the program from
`0x200` on, and zeros. -/
def startImage (rom : List UInt8) (a : Nat) : UInt8 :=
  if 0x050 ≤ a ∧ a < 0x050 + 80 then Font.bytes.getD (a - 0x050) 0
  else if 0x200 ≤ a ∧ a < 0x200 + rom.length then rom.getD (a - 0x200) 0
  else 0

/-- The machine that starts a program, with the version of its display and its random source. -/
def started (rom : List UInt8) (version : Nat) (random : RandomSource) : Machine where
  v := Vector.replicate 16 0
  i := .ofInt 0
  pc := .ofInt 0x200
  stack := .empty
  dt := 0
  st := 0
  memory := .ofImage 0x1000 (startImage rom)
  display := ⟨Vector.replicate 2048 false, version⟩
  keypad := ⟨Vector.replicate 16 false⟩
  random := random

theorem bounded_started (rom : List UInt8) (version : Nat) (random : RandomSource) :
    (started rom version random).Bounded :=
  bounded_of_start rfl rfl rfl rfl (Memory.size_bytes_ofImage _ _)

/-! ### The memory -/

/-- Zeros with the font are what is there without a program. -/
theorem store_font {m : Memory} (hsize : m.size = .ofInt Memory.standardSize)
    (hcount : m.bytes.size = Memory.standardSize) :
    m.clear.store Font.base Font.bytes = .ofImage 0x1000 (startImage []) := by
  have hclear : m.clear.bytes.size = Memory.standardSize :=
    (Memory.size_bytes_clear m).trans hcount
  have hfits : Font.base + Font.bytes.length ≤ m.clear.bytes.size := by
    rw [hclear]
    decide
  refine Memory.eq_ofImage ?_ ?_ fun a _ => ?_
  · rw [Memory.size_store, Memory.size_clear, hsize]
    rfl
  · rw [Memory.size_bytes_store, hclear]
    rfl
  · rw [Memory.byteAt_store hfits, Memory.byteAt_clear, startImage, Font.length_bytes]
    refine if_congr Iff.rfl rfl ?_
    rw [if_neg (by simp)]

/-- A program goes where nothing of the font is. -/
theorem store_program {rom : List UInt8} (h : rom.length ≤ 0xE00) :
    (Memory.ofImage 0x1000 (startImage [])).store Memory.programStart rom =
      .ofImage 0x1000 (startImage rom) := by
  have hfits : Memory.programStart + rom.length ≤
      (Memory.ofImage 0x1000 (startImage [])).bytes.size := by
    rw [Memory.size_bytes_ofImage]
    show 0x200 + rom.length ≤ 0x1000
    omega
  refine Memory.eq_ofImage ?_ ?_ fun a ha => ?_
  · rw [Memory.size_store]
    rfl
  · rw [Memory.size_bytes_store, Memory.size_bytes_ofImage]
  · rw [Memory.byteAt_store hfits, Memory.byteAt_ofImage _ ha]
    show (if 0x200 ≤ a ∧ a < 0x200 + rom.length then rom.getD (a - 0x200) 0
      else startImage [] a) = startImage rom a
    unfold startImage
    by_cases hfont : 0x050 ≤ a ∧ a < 0x050 + 80
    · -- the font ends before the program begins
      rw [if_pos hfont, if_pos hfont, if_neg (by omega)]
    · have hnone : ¬ (0x200 ≤ a ∧ a < 0x200 + ([] : List UInt8).length) := by
        rw [List.length_nil]
        omega
      rw [if_neg hfont, if_neg hfont, if_neg hnone]

/-! ### Resetting and loading -/

/-- The machine after a reset, in a memory that has room for the font. -/
def restarted (m : Machine) : Machine :=
  { m with
    v := Vector.replicate 16 0, i := .ofInt 0, pc := start, stack := .empty, dt := 0, st := 0
    memory := m.memory.clear.store Font.base Font.bytes
    display := m.display.clear
    keypad := .released }

theorem font_ends : (Font.base + Font.bytes.length : Int) = 160 := rfl

theorem reset_of_le {m : Machine} (h : 160 ≤ m.memory.reach) : m.reset = .ok m.restarted := by
  have hload : m.memory.clear.load (.ofInt Font.base) Font.bytes =
      .ok (m.memory.clear.store Font.base Font.bytes) := by
    rw [Memory.load_ofInt, font_ends]
    exact if_pos h
  simp only [reset, hload]
  rfl

/-- A reset leaves the version of the display, which it raises, and the random source. -/
theorem reset_eq_started {m : Machine} (hsize : m.memory.size = .ofInt Memory.standardSize)
    (hcount : m.memory.bytes.size = Memory.standardSize) :
    m.reset = .ok (started [] (m.display.version + 1) m.random) := by
  have hroom : 160 ≤ m.memory.reach := by
    rw [Memory.reach_of_size hsize]
    decide
  rw [reset_of_le hroom, restarted, store_font hsize hcount]
  rfl

/-- A program that is not too long is loaded into a machine that has just been reset. -/
theorem loadProgram_started {rom : List UInt8} (h : rom.length ≤ 0xE00) (version : Nat)
    (random : RandomSource) (logger : Logger) :
    (started [] version random).loadProgram logger rom =
      { state := started rom version random,
        log := (logger.debug (loadedNote rom.length)).toArray } := by
  have hload : (started [] version random).memory.load start rom =
      .ok (.ofImage 0x1000 (startImage rom)) := by
    have hsize : (started [] version random).memory.size = .ofInt Memory.standardSize := rfl
    have hfits : Memory.programStart + rom.length ≤ Memory.standardSize := by
      show 0x200 + rom.length ≤ 0x1000
      omega
    rw [start, Memory.load_natCast hsize, if_pos hfits]
    exact congrArg Except.ok (store_program h)
  rw [loadProgram, Rom.validate_natCast, if_neg (by omega)]
  simp only [hload]
  rfl

end Machine

end Chip8
