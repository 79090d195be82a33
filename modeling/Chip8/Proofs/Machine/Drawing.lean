import Chip8.Proofs.Machine.Step

/-!
# Drawing a sprite

What a step does that draws a sprite, told pixel by pixel of the screen (`loggedStep_draw`): every
pixel looks back to the one pixel of the sprite that may fall on it, with wrapping on both axes.
The coordinates are those before the step, also where one of them is in the flag register.
-/

namespace Chip8.Machine

open Instruction (effect hazard)

/-! ### The machine after drawing -/

theorem matches_draw {x y n : Fin 16} {word : Nat}
    (h : word = 0xD000 + x.val * 0x100 + y.val * 0x10 + n.val) :
    (Instruction.draw x.val y.val n.val).Matches word := by
  refine ⟨?_, ?_⟩
  · simp only [Instruction.map, Instruction.InRange]
    omega
  · simp only [Instruction.map, Instruction.encode, Instruction.pack]
    omega

/-- A well-formed machine whose view is that of another past its word, with a register, the
picture and the version changed, is that machine with these components changed. -/
theorem eq_of_view_put {m m' : Machine} {size : Nat} (hm : m.WellFormed size)
    (hm' : m'.WellFormed size) (hlt : m.address + 2 < 0x10000) {k : Nat} (hk : k < 16)
    {b : UInt8}
    (h : m'.view = { m.view.advanced.put k b.toNat with
      pixel := m'.display.pixel, version := m'.display.version }) :
    m' = { m with
      v := m.v.set k b, pc := .ofInt (m.address + 2 : Nat), display := m'.display } := by
  have hpc := reaches_pc hm hlt
  have hset := reaches_set hpc.wellFormed ⟨k, hk⟩ b
  have hdisplay : WellFormed { m with
      v := m.v.set k b, pc := .ofInt (m.address + 2 : Nat), display := m'.display } size :=
    hset.wellFormed.of_eq rfl rfl rfl rfl
  refine view_injective hm' hdisplay ?_
  have hview := hset.view_eq
  rw [hpc.view_eq] at hview
  rw [h]
  exact congrArg (fun s : View => { s with
    pixel := m'.display.pixel, version := m'.display.version }) hview.symm

section Draw

variable {m : Machine} (hm : m.WellFormed Memory.standardSize) {x y n : Fin 16}
  (hpc : m.address + 2 ≤ 0x1000)
  (hword : m.memory.wordAt m.address = 0xD000 + x.val * 0x100 + y.val * 0x10 + n.val)
  (hi : n.val = 0 ∨ m.index + n.val ≤ 0x1000)

include hm hpc hword hi

theorem reaches_step_draw :
    Reaches m.step Memory.standardSize
      (m.view.advanced.drawn (m.view.sprite m.v[x].toNat m.v[y].toNat n.val)) := by
  have hnone : hazard Memory.standardSize m.view (.draw x.val y.val n.val) = none := by
    refine if_neg ?_
    show ¬ (0 < n.val ∧ 0x1000 < m.index + n.val)
    omega
  refine (reaches_step_of_matches hm (by decide) hpc (matches_draw hword) hnone).of_eq ?_
  show m.view.advanced.drawn (m.view.sprite (m.view.v x.val) (m.view.v y.val) n.val) = _
  rw [view_v m x.isLt, view_v m y.isLt]
  rfl

end Draw

/-! ### Pixel by pixel -/

/-- A step that draws a sprite succeeds if the sprite has no rows or ends inside the memory.  A
pixel of the screen that lies `col` to the right of `Vx` and `row` below `Vy`, counted around the
edges, is inverted if bit `7 - col` of row `row` of the sprite is set.  The flag tells whether any
pixel went out, and nothing else changes but the program counter and the version of the display. -/
theorem loggedStep_draw {m : Machine} (hm : m.WellFormed Memory.standardSize) (logger : Logger)
    {x y n : Fin 16} (hpc : m.address + 2 ≤ 0x1000)
    (hword : m.memory.wordAt m.address = 0xD000 + x.val * 0x100 + y.val * 0x10 + n.val)
    (hi : n.val = 0 ∨ m.index + n.val ≤ 0x1000) :
    let o := m.loggedStep logger
    o.failure? = none ∧
      (∀ (px : Fin 64) (py : Fin 32),
        let col := (((px.val : Int) - m.v[x].toNat) % 64).toNat
        let row := (((py.val : Int) - m.v[y].toNat) % 32).toNat
        o.state.display.pixel px py =
          if col < 8 ∧ row < n.val then
            m.display.pixel px py ^^
              (m.memory.byteAt (m.index + row)).toNat.testBit (7 - col)
          else m.display.pixel px py) ∧
      o.state = { m with
        v := m.v.set 0xF
          (if ∃ px py, m.display.pixel px py = true ∧ o.state.display.pixel px py = false then 1
          else 0)
        pc := .ofInt (m.address + 2 : Nat)
        display := o.state.display } ∧
      o.state.display.version = m.display.version + 1 := by
  have hreaches := reaches_step_draw hm hpc hword hi
  have hview := hreaches.view_eq
  have hpixel : m.step.state.display.pixel = fun px py =>
      m.display.pixel px py ^^ m.view.sprite m.v[x].toNat m.v[y].toNat n.val px py :=
    congrArg View.pixel hview
  have hversion : m.step.state.display.version = m.display.version + 1 :=
    congrArg View.version hview
  simp only [failure?_loggedStep, state_loggedStep]
  refine ⟨hreaches.failure?_eq, ?_, ?_, hversion⟩
  · intro px py
    simp only [hpixel, View.sprite]
    split_ifs with hcovers
    · simp only [hcovers, decide_true, Bool.true_and]
      rfl
    · rw [← Bool.decide_and, decide_eq_false hcovers, Bool.false_and, Bool.xor_false]
  · have hflag : (if ∃ px py, m.display.pixel px py = true ∧
        m.step.state.display.pixel px py = false then 1 else 0 : UInt8).toNat =
        if View.goesOut m.display.pixel m.step.state.display.pixel then 1 else 0 := by
      rw [apply_ite UInt8.toNat]
      refine if_congr ?_ rfl rfl
      simp [View.goesOut]
    -- the picture and the version are those of the machine itself, and the rest is the row
    refine eq_of_view_put hm hreaches.wellFormed (by omega) (by decide) ?_
    rw [hflag, hview, hversion, hpixel]
    rfl

/-- A machine about to draw the two bytes of its own instruction, at the column that `VF` holds. -/
def selfPortrait : Machine :=
  { programmed (.replay #[0xAB] 0) [0xDF, 0x02] with
    v := (Vector.replicate 16 0).set 0xF 62, i := .ofInt 0x200 }

/-- The sprite goes around the right edge, where it continues with its third column. -/
theorem loggedStep_draw_selfPortrait :
    let o := selfPortrait.loggedStep (.recorder true)
    o.failure? = none ∧ o.state.display.pixel 62 0 = true ∧ o.state.display.pixel 0 0 = false ∧
      o.state.display.pixel 1 0 = true ∧ o.state.display.version = 1 := by
  have hwf : selfPortrait.WellFormed Memory.standardSize := by
    constructor <;> decide +kernel
  obtain ⟨hsuccess, hpixel, -, hversion⟩ := loggedStep_draw (x := 0xF) (y := 0) (n := 2) hwf
    (.recorder true) (by decide +kernel) (by decide +kernel) (by decide +kernel)
  refine ⟨hsuccess, ?_, ?_, ?_, hversion⟩
  · exact (hpixel 62 0).trans (by decide +kernel)
  · exact (hpixel 0 0).trans (by decide +kernel)
  · exact (hpixel 1 0).trans (by decide +kernel)

end Chip8.Machine
