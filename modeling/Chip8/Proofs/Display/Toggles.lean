import Chip8.Proofs.Display.Sprite
import Mathlib.Data.Finset.Card
import Mathlib.Data.Finset.Prod
import Mathlib.Data.Int.Bitwise

/-!
# Sprites of any height

A sprite that is higher than the screen goes around the bottom edge and meets rows that it has
drawn itself.  So a pixel of the screen may be inverted any number of times: as often as a set bit
of the sprite falls on it (`Display.toggles`).  Drawing leaves the parity of this number
(`draw_toggles`), and it collides where a bit falls on a lit pixel or two bits fall on one.

The bits of a row are those of its two's complement (`rowBit_eq_testBit`), so a row may be any
integer.
-/

namespace Chip8.Display

/-! ### The bits of a row -/

theorem testBit_emod (row : Int) {k : Nat} (hk : k < 8) :
    (row % 0x100).toNat.testBit k = row.testBit k := by
  cases row with
  | ofNat n =>
    show (n % 2 ^ 8).testBit k = n.testBit k
    rw [Nat.testBit_mod_two_pow, decide_eq_true hk, Bool.true_and]
  | negSucc n =>
    -- the low byte of `-(n + 1)` is the complement of that of `n`
    have hlow : (Int.negSucc n % 0x100).toNat = 2 ^ 8 - (n % 2 ^ 8 + 1) := by omega
    have hlt : n % 2 ^ 8 < 2 ^ 8 := Nat.mod_lt n (Nat.two_pow_pos 8)
    show (Int.negSucc n % 0x100).toNat.testBit k = !n.testBit k
    rw [hlow, Nat.testBit_two_pow_sub_succ hlt, Nat.testBit_mod_two_pow, decide_eq_true hk,
      Bool.true_and, Bool.true_and]

theorem rowBit_eq_testBit (row : Int) (col : Nat) : rowBit row col = row.testBit (7 - col) :=
  testBit_emod row (Nat.lt_succ_of_le (Nat.sub_le 7 col))

/-! ### How often a pixel is inverted -/

/-- How many set bits of a sprite at `(x, y)` fall on the pixel `(px, py)` of the screen. -/
def toggles (x y : Nat) (rows : List Int) (px : Fin 64) (py : Fin 32) : Nat :=
  ((Finset.range rows.length ×ˢ Finset.range 8).filter fun (row, col) =>
    (rows.getD row 0).testBit (7 - col) = true ∧
      (x + col) % 64 = px.val ∧ (y + row) % 32 = py.val).card

theorem placeOf_eq_iff (x y row col : Nat) (px : Fin 64) (py : Fin 32) :
    placeOf x y row col = py.val * 64 + px.val ↔
      (x + col) % 64 = px.val ∧ (y + row) % 32 = py.val := by
  unfold placeOf
  omega

/-- The place of a pixel is listed as often as a bit falls on it. -/
theorem count_spritePlaces_eq_toggles (x y : Nat) (rows : List Int) (px : Fin 64) (py : Fin 32) :
    (spritePlaces x y rows).count (py.val * 64 + px.val) = toggles x y rows px py := by
  rw [List.count_eq_countP, spritePlaces, List.countP_map, List.countP_eq_length_filter,
    ← List.toFinset_card_of_nodup ((nodup_spriteBits rows).filter _), toggles]
  congr 1
  ext ⟨row, col⟩
  simp only [List.mem_toFinset, List.mem_filter, mem_spriteBits, Function.comp_apply, beq_iff_eq,
    placeOf_eq_iff, Finset.mem_filter, Finset.mem_product, Finset.mem_range, rowBit_eq_testBit]
  constructor
  · rintro ⟨⟨bits, hrow, hcol, hbit⟩, hplace⟩
    have hlt := (List.getElem?_eq_some_iff.1 hrow).1
    refine ⟨⟨hlt, hcol⟩, ?_, hplace⟩
    rwa [List.getD_eq_getElem?_getD, hrow]
  · rintro ⟨⟨hlt, hcol⟩, hbit, hplace⟩
    refine ⟨⟨rows[row], List.getElem?_eq_getElem hlt, hcol, ?_⟩, hplace⟩
    rwa [List.getD_eq_getElem?_getD, List.getElem?_eq_getElem hlt] at hbit

/-- Drawing a sprite of any height inverts a pixel of the screen as often as a set bit of the sprite
falls on it.  It collides if one falls on a lit pixel, or two on the same pixel. -/
theorem draw_toggles (d : Display) (x y : Nat) (rows : List Int) :
    (∀ px py, (d.draw x y rows).1.pixel px py =
        (d.pixel px py ^^ decide (toggles x y rows px py % 2 = 1))) ∧
      ((d.draw x y rows).2 = true ↔ ∃ px py,
        (1 ≤ toggles x y rows px py ∧ d.pixel px py = true) ∨ 2 ≤ toggles x y rows px py) := by
  constructor
  · intro px py
    have hplace : py.val * 64 + px.val < 2048 := by omega
    rw [pixel, pixels_draw d x y rows hplace, count_spriteCells, count_spritePlaces_eq_toggles,
      pixel]
  · rw [collision_draw_natCast]
    simp only [count_spritePlaces_eq_toggles]

/-- The bottom row of this sprite goes around the screen onto the top row. -/
example : toggles 0 0 (List.replicate 33 0x80) 0 0 = 2 := by
  decide +kernel

end Chip8.Display
