import Chip8.Proofs.Display.History
import Chip8.Proofs.Display.Toggles

/-!
# Sprites over one another

A picture made of sprites only tells how often each place was inverted, over all sprites together
(`pixels_overlay`), and of that only the parity.  So sprites may be drawn in any order
(`pixels_overlay_of_perm`), and one that is drawn twice leaves nothing (`pixels_overlay_twice`).

Whether a call collides does depend on the order.  Of two equal calls in a row one collides if the
sprite has a set bit: what the first one lights, the second one puts out (`collides_twice_iff`).
-/

namespace Chip8.Display

/-- A sprite and where it is drawn. -/
structure Sprite where
  x : Int
  y : Int
  rows : List Int

namespace Sprite

/-- The call that draws the sprite. -/
def call (s : Sprite) : Call := .draw s.x s.y s.rows

/-- The places of the set pixels of the sprite. -/
def cells (s : Sprite) : List Int := spriteCells s.x s.y s.rows

/-- The low byte of some row has a set bit. -/
def HasSetBit (s : Sprite) : Prop := ∃ row ∈ s.rows, ∃ k < 8, row.testBit k = true

theorem exists_mem_cells_iff (s : Sprite) : (∃ p, p ∈ s.cells) ↔ s.HasSetBit := by
  simp only [cells, spriteCells, List.mem_map, Prod.exists, mem_spriteBits, HasSetBit]
  constructor
  · rintro ⟨-, row, col, ⟨bits, hrow, -, hbit⟩, -⟩
    rw [rowBit_eq_testBit] at hbit
    exact ⟨bits, List.mem_of_getElem? hrow, 7 - col, by omega, hbit⟩
  · rintro ⟨bits, hmem, k, hk, hbit⟩
    obtain ⟨row, hrow⟩ := List.mem_iff_getElem?.1 hmem
    have hcol : 7 - (7 - k) = k := by omega
    refine ⟨_, row, 7 - k, ⟨bits, hrow, by omega, ?_⟩, rfl⟩
    rwa [rowBit_eq_testBit, hcol]

end Sprite

/-- The display after sprites are drawn, one over the other. -/
def overlay (d : Display) (sprites : List Sprite) : Display := d.after (sprites.map Sprite.call)

/-- Whether a lit pixel goes out when a sprite is drawn. -/
def collides (d : Display) (s : Sprite) : Bool := (d.draw s.x s.y s.rows).2

/-! ### The picture of many sprites -/

theorem xor_odd (m n : Nat) :
    (decide (m % 2 = 1) ^^ decide (n % 2 = 1)) = decide ((m + n) % 2 = 1) := by
  rcases Nat.mod_two_eq_zero_or_one m with hm | hm <;>
    rcases Nat.mod_two_eq_zero_or_one n with hn | hn <;> simp [Nat.add_mod, hm, hn]

/-- A pixel is inverted as often as all sprites together list its place. -/
theorem pixels_overlay (d : Display) (sprites : List Sprite) {k : Nat} (hk : k < 2048) :
    (d.overlay sprites).pixels[k] =
      (d.pixels[k] ^^ decide ((sprites.flatMap Sprite.cells).count (k : Int) % 2 = 1)) := by
  induction sprites generalizing d with
  | nil => exact (Bool.xor_false _).symm
  | cons s rest ih =>
    show ((d.draw s.x s.y s.rows).1.overlay rest).pixels[k] = _
    rw [ih, pixels_draw d s.x s.y s.rows hk, Bool.xor_assoc, xor_odd, List.flatMap_cons,
      List.count_append]
    rfl

theorem version_overlay (d : Display) (sprites : List Sprite) :
    (d.overlay sprites).version = d.version + sprites.length := by
  rw [overlay, version_after, List.length_map]

/-- The parities of the counts determine the picture. -/
theorem pixels_overlay_eq (d : Display) {sprites others : List Sprite}
    (h : ∀ p : Int, (sprites.flatMap Sprite.cells).count p % 2 =
      (others.flatMap Sprite.cells).count p % 2) :
    (d.overlay sprites).pixels = (d.overlay others).pixels := by
  ext k hk
  rw [pixels_overlay d sprites hk, pixels_overlay d others hk, h]

/-- Sprites may be drawn in any order. -/
theorem pixels_overlay_of_perm (d : Display) {sprites others : List Sprite}
    (h : sprites.Perm others) : (d.overlay sprites).pixels = (d.overlay others).pixels := by
  refine d.pixels_overlay_eq fun p => ?_
  rw [(h.flatMap_right Sprite.cells).count_eq p]

/-- A sprite that is drawn twice leaves nothing, whatever is drawn in between. -/
theorem pixels_overlay_twice (d : Display) (s : Sprite) (before between rest : List Sprite) :
    (d.overlay (before ++ s :: between ++ s :: rest)).pixels =
      (d.overlay (before ++ between ++ rest)).pixels := by
  refine d.pixels_overlay_eq fun p => ?_
  simp only [List.flatMap_append, List.flatMap_cons, List.count_append]
  omega

/-! ### Collisions -/

theorem mem_cells_of_collides {d : Display} {s : Sprite} (h : d.collides s = true) :
    ∃ p, p ∈ s.cells := by
  rcases (collision_draw_iff d s.x s.y s.rows).1 h with ⟨p, hp, -⟩ | ⟨k, hk, ⟨hcount, -⟩ | hcount⟩
  · exact ⟨p, hp⟩
  · exact ⟨k, List.count_pos_iff.1 hcount⟩
  · exact ⟨k, List.count_pos_iff.1 (Nat.lt_of_succ_lt hcount)⟩

/-- What a sprite without a collision lights, it puts out when it is drawn again. -/
theorem collides_again {d : Display} {s : Sprite} (h : d.collides s = false) {p : Int}
    (hp : p ∈ s.cells) : (d.overlay [s]).collides s = true := by
  have hnone := mt (collision_draw_iff d s.x s.y s.rows).2 (Bool.eq_false_iff.1 h)
  simp only [not_or, not_exists, not_and, Bool.not_eq_true, Nat.not_le] at hnone
  obtain ⟨hnonneg, hcount⟩ := hnone
  obtain ⟨k, rfl⟩ := Int.eq_ofNat_of_zero_le (Int.not_lt.1 (hnonneg p hp))
  have hk : k < 2048 := by
    have hlt := spriteCells_lt hp
    omega
  obtain ⟨hunlit, honce⟩ := hcount k hk
  have hpos : 1 ≤ (spriteCells s.x s.y s.rows).count (k : Int) := List.count_pos_iff.2 hp
  refine (collision_draw_iff _ s.x s.y s.rows).2 (.inr ⟨k, hk, .inl ⟨hpos, ?_⟩⟩)
  -- the place is listed once, so the first call has lit it
  show (d.draw s.x s.y s.rows).1.pixels[k] = true
  have hone : (spriteCells s.x s.y s.rows).count (k : Int) = 1 := by omega
  rw [pixels_draw d s.x s.y s.rows hk, hone, hunlit hpos]
  rfl

/-- Of two equal calls in a row one collides, if the sprite has a set bit; else neither does. -/
theorem collides_twice_iff (d : Display) (s : Sprite) :
    (d.collides s = true ∨ (d.overlay [s]).collides s = true) ↔ s.HasSetBit := by
  rw [← s.exists_mem_cells_iff]
  constructor
  · rintro (h | h)
    · exact mem_cells_of_collides h
    · exact mem_cells_of_collides h
  · rintro ⟨p, hp⟩
    cases h : d.collides s with
    | true => exact .inl rfl
    | false => exact .inr (collides_again h hp)

/-! ### The laws together -/

/-- Sprites at any integer positions leave the same display in whatever order they are drawn.  Two
equal ones among them leave the same pixels as none, and if they are drawn in a row, one of the two
calls collides exactly if the sprite has a set bit. -/
theorem overlay_laws (d : Display) :
    (∀ sprites others : List Sprite, sprites.Perm others →
      (d.overlay sprites).pixels = (d.overlay others).pixels ∧
        (d.overlay sprites).version = (d.overlay others).version) ∧
      (∀ (s : Sprite) (before between rest : List Sprite),
        (d.overlay (before ++ s :: between ++ s :: rest)).pixels =
          (d.overlay (before ++ between ++ rest)).pixels) ∧
      (∀ (s : Sprite) (before : List Sprite),
        ((d.overlay before).collides s = true ∨
          (d.overlay (before ++ [s])).collides s = true) ↔ s.HasSetBit) := by
  refine ⟨?_, d.pixels_overlay_twice, ?_⟩
  · intro sprites others h
    refine ⟨d.pixels_overlay_of_perm h, ?_⟩
    rw [version_overlay, version_overlay, h.length_eq]
  · intro s before
    have happend : d.overlay (before ++ [s]) = (d.overlay before).overlay [s] := by
      simp only [overlay, after, List.map_append, List.foldl_append]
    rw [happend]
    exact collides_twice_iff _ s

/-- A full row of eight pixels in the corner. -/
def bar : Sprite := ⟨0, 0, [0xFF]⟩

/-- The pixel in the corner. -/
def dot : Sprite := ⟨0, 0, [0x80]⟩

/-- The dot collides or not as the bar is under it or over it, but the picture is the same. -/
theorem overlay_laws_bar_dot :
    [bar, dot].Perm [dot, bar] ∧
      (blank.overlay [bar, dot]).pixels = (blank.overlay [dot, bar]).pixels ∧
      blank.collides dot = false ∧ (blank.overlay [bar]).collides dot = true := by
  have hperm : [bar, dot].Perm [dot, bar] := List.Perm.swap dot bar []
  refine ⟨hperm, ?_, by decide +kernel, by decide +kernel⟩
  exact ((overlay_laws blank).1 [bar, dot] [dot, bar] hperm).1

end Chip8.Display
