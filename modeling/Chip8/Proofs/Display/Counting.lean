import Chip8.Proofs.Display.Toggles

/-!
# Counting lit pixels

Every set bit of a sprite inverts one pixel.  Where it lights one, the display has one lit pixel
more, and where it puts one out, one less and the call collides.  So the lit pixels that a call
gains fall short of the set bits of the sprite by twice the number of those that went out
(`exists_out_draw`), and the gain alone tells whether the call collided (`countLit_draw`).
-/

namespace Chip8.Display

/-! ### The set bits of a sprite -/

/-- The count of set bits in the low bytes of the rows of a sprite. -/
def setBits (rows : List Int) : Nat :=
  (rows.map fun row => (List.range 8).countP fun k => row.testBit k).sum

theorem countP_rowBit (row : Int) :
    (List.range 8).countP (rowBit row) = (List.range 8).countP fun k => row.testBit k := by
  have hreverse : (List.range 8).map (fun col => 7 - col) = (List.range 8).reverse := by decide
  calc (List.range 8).countP (rowBit row)
      = (List.range 8).countP ((fun k => row.testBit k) ∘ fun col => 7 - col) := by
        refine List.countP_congr fun col _ => ?_
        rw [rowBit_eq_testBit]
        rfl
    _ = (List.range 8).reverse.countP fun k => row.testBit k := by
        rw [← hreverse, List.countP_map]
    _ = (List.range 8).countP fun k => row.testBit k := List.countP_reverse

theorem length_spriteBits (rows : List Int) : (spriteBits rows).length = setBits rows := by
  unfold spriteBits setBits
  rw [List.length_flatMap]
  simp only [List.length_map, ← List.countP_eq_length_filter, countP_rowBit]
  -- what is counted of a row does not ask for its position
  have hrows : rows = rows.zipIdx.map Prod.fst := (List.zipIdx_map_fst 0 rows).symm
  conv_rhs => rw [hrows, List.map_map]
  rfl

/-! ### Inverting one pixel after the other -/

theorem count_set_not (pixels : Vector Bool 2048) {k : Nat} (hk : k < 2048) :
    ((pixels.set k (!pixels[k])).toList.count true : Int) =
      pixels.toList.count true + if pixels[k] then -1 else 1 := by
  have hlength : k < pixels.toList.length := by rwa [Vector.length_toList]
  rw [Vector.toList_set, List.count_set hlength, Vector.getElem_toList]
  cases hlit : pixels[k] with
  | false => simp
  | true =>
    have hmem : true ∈ pixels.toList := hlit ▸ Vector.mem_toList_iff.2 (Vector.getElem_mem hk)
    have hpos : 0 < pixels.toList.count true := List.count_pos_iff.2 hmem
    simp only [beq_self_eq_true, Bool.not_true, reduceCtorEq, beq_iff_eq, if_true, if_false]
    omega

/-- Of the inversions some put a pixel out, which the flag tells, and the others light one. -/
theorem exists_out_foldl_invert (places : List Nat) (hplaces : ∀ n ∈ places, n < 2048)
    (pixels : Vector Bool 2048) (collision : Bool) :
    ∃ out ≤ places.length,
      (((places.map Nat.cast).foldl invert (pixels, collision)).1.toList.count true : Int) =
        pixels.toList.count true + places.length - 2 * out ∧
      (((places.map Nat.cast).foldl invert (pixels, collision)).2 = true ↔
        collision = true ∨ 0 < out) := by
  induction places generalizing pixels collision with
  | nil => exact ⟨0, Nat.le_refl 0, by simp, by simp⟩
  | cons n rest ih =>
    have hn : n < 2048 := hplaces n List.mem_cons_self
    have hrest : ∀ l ∈ rest, l < 2048 := fun l hl => hplaces l (List.mem_cons_of_mem n hl)
    obtain ⟨out, hle, hcount, hflag⟩ :=
      ih hrest (pixels.set n (!pixels[n])) (collision || pixels[n])
    rw [count_set_not pixels hn] at hcount
    simp only [List.map_cons, List.foldl_cons, invert_of_nonneg pixels collision hn,
      List.length_cons]
    generalize (rest.map Nat.cast).foldl invert (pixels.set n (!pixels[n]), collision || pixels[n])
      = final at hcount hflag ⊢
    cases hlit : pixels[n] with
    | false =>
      rw [hlit, Bool.or_false] at hflag
      rw [hlit, if_neg Bool.false_ne_true] at hcount
      exact ⟨out, by omega, by omega, hflag⟩
    | true =>
      rw [hlit, Bool.or_true] at hflag
      rw [hlit, if_pos rfl] at hcount
      have hcollides : final.2 = true := hflag.2 (.inl rfl)
      exact ⟨out + 1, by omega, by omega, iff_of_true hcollides (.inr (Nat.succ_pos out))⟩

/-! ### Drawing -/

theorem lt_of_mem_spritePlaces {x y : Nat} {rows : List Int} {n : Nat}
    (hn : n ∈ spritePlaces x y rows) : n < 2048 := by
  obtain ⟨⟨row, col⟩, -, rfl⟩ := List.mem_map.1 hn
  show (y + row) % 32 * 64 + (x + col) % 64 < 2048
  omega

/-- A call gains as many lit pixels as the sprite has set bits, less two for every pixel that it
puts out.  It collides if it puts any out. -/
theorem exists_out_draw (d : Display) (x y : Nat) (rows : List Int) :
    ∃ out ≤ setBits rows,
      ((d.draw x y rows).1.countLit : Int) = d.countLit + setBits rows - 2 * out ∧
      ((d.draw x y rows).2 = true ↔ 0 < out) := by
  obtain ⟨out, hle, hcount, hflag⟩ := exists_out_foldl_invert (spritePlaces x y rows)
    (fun _ => lt_of_mem_spritePlaces) d.pixels false
  have hlength : (spritePlaces x y rows).length = setBits rows := by
    rw [spritePlaces, List.length_map, length_spriteBits]
  rw [hlength] at hle hcount
  rw [← spriteCells_natCast] at hcount hflag
  exact ⟨out, hle, hcount, hflag.trans (or_iff_right Bool.false_ne_true)⟩

/-- A call gains as many lit pixels as the sprite has set bits exactly if it does not collide, and
else at least two fewer.  The gain is even or odd as the set bits are, and no more pixels are lost
than there are set bits. -/
theorem countLit_draw (d : Display) (x y : Nat) (rows : List Int) :
    let gained : Int := (d.draw x y rows).1.countLit - d.countLit
    let bits : Int := setBits rows
    ((d.draw x y rows).2 = false ↔ gained = bits) ∧
      ((d.draw x y rows).2 = true ↔ gained ≤ bits - 2) ∧
      gained % 2 = bits % 2 ∧ -bits ≤ gained := by
  intro gained bits
  obtain ⟨out, hle, hcount, hflag⟩ := exists_out_draw d x y rows
  have hgained : gained = bits - 2 * out := by
    show ((d.draw x y rows).1.countLit : Int) - d.countLit = setBits rows - 2 * out
    omega
  have hbits : (out : Int) ≤ bits := Int.ofNat_le.2 hle
  refine ⟨?_, ?_, by omega, by omega⟩
  · rw [← Bool.not_eq_true, hflag]
    omega
  · rw [hflag]
    omega

end Chip8.Display
