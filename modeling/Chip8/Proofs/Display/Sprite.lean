import Chip8.Display.Basic
import Mathlib.Data.List.Count
import Mathlib.Data.List.Nodup
import Mathlib.Tactic.SplitIfs

/-!
# What a sprite does to the pixels

`Display.draw` goes over the set pixels of a sprite and inverts a place of the screen for each.
No place is past the last pixel (`spriteCells_lt`).  So a pixel is inverted as often as its place
is listed (`pixels_draw`), and drawing collides exactly if a place left of the first pixel is
listed, a lit pixel is, or a pixel is listed twice (`collision_draw_iff`).

At a position on the screen or right of it and below, all places are natural numbers
(`spriteCells_natCast`).  A sprite there that is not higher than the screen lists every place at
most once (`nodup_spritePlaces`).  Then a pixel of the screen is pulled back to the one pixel of
the sprite that may cover it (`Display.covers`): drawing inverts the covered pixels (`pixel_draw`)
and collides exactly if a covered pixel was lit (`collision_draw`).
-/

namespace Chip8.Display

/-! ### Inverting places one after the other -/

theorem invert_of_nonneg (pixels : Vector Bool 2048) (collision : Bool) {k : Nat} (hk : k < 2048) :
    invert (pixels, collision) k = (pixels.set k (!pixels[k]), collision || pixels[k]) := by
  simp [invert, hk]

/-- A place left of the first pixel keeps nothing and counts as a collision. -/
theorem invert_of_neg (pixels : Vector Bool 2048) (collision : Bool) {p : Int} (hp : p < 0) :
    invert (pixels, collision) p = (pixels, true) := by
  have hnot : ¬ (0 ≤ p ∧ p.toNat < 2048) := by omega
  simp only [invert]
  rw [dif_neg hnot]

/-- A pixel is inverted as often as its place is listed; places left of the first pixel do not
count. -/
theorem getElem_foldl_invert (places : List Int) (hplaces : ∀ p ∈ places, p < 2048)
    (pixels : Vector Bool 2048) (collision : Bool) {k : Nat} (hk : k < 2048) :
    (places.foldl invert (pixels, collision)).1[k] =
      (pixels[k] ^^ decide (places.count (k : Int) % 2 = 1)) := by
  induction places generalizing pixels collision with
  | nil => simp
  | cons p rest ih =>
    have hp : p < 2048 := hplaces p List.mem_cons_self
    have hrest : ∀ q ∈ rest, q < 2048 := fun q hq => hplaces q (List.mem_cons_of_mem p hq)
    rw [List.foldl_cons]
    rcases Int.lt_or_le p 0 with hneg | hnonneg
    · have hpk : p ≠ (k : Int) := by omega
      rw [invert_of_neg pixels collision hneg, ih hrest, List.count_cons_of_ne hpk]
    · obtain ⟨n, rfl⟩ := Int.eq_ofNat_of_zero_le hnonneg
      have hn : n < 2048 := by omega
      rw [invert_of_nonneg pixels collision hn, ih hrest, Vector.getElem_set]
      by_cases hnk : n = k
      · subst hnk
        have hparity : (rest.count (n : Int) + 1) % 2 = 1 ↔ ¬ rest.count (n : Int) % 2 = 1 := by
          omega
        rw [if_pos rfl, List.count_cons_self, decide_eq_decide.2 hparity, decide_not, Bool.not_xor,
          Bool.xor_not]
      · have hcast : (n : Int) ≠ (k : Int) := by omega
        rw [if_neg hnk, List.count_cons_of_ne hcast]

/-- The flag is set in the end exactly if it was set before, a place left of the first pixel is
listed, a lit pixel is listed or a pixel is listed twice. -/
theorem collision_foldl_invert (places : List Int) (hplaces : ∀ p ∈ places, p < 2048)
    (pixels : Vector Bool 2048) (collision : Bool) :
    (places.foldl invert (pixels, collision)).2 = true ↔
      collision = true ∨ (∃ p ∈ places, p < 0) ∨ ∃ (k : Nat) (hk : k < 2048),
        (1 ≤ places.count (k : Int) ∧ pixels[k] = true) ∨ 2 ≤ places.count (k : Int) := by
  induction places generalizing pixels collision with
  | nil => simp
  | cons p rest ih =>
    have hp : p < 2048 := hplaces p List.mem_cons_self
    have hrest : ∀ q ∈ rest, q < 2048 := fun q hq => hplaces q (List.mem_cons_of_mem p hq)
    have hself : (p :: rest).count p = rest.count p + 1 := List.count_cons_self
    have hother {k : Nat} (hpk : p ≠ k) : (p :: rest).count (k : Int) = rest.count (k : Int) :=
      List.count_cons_of_ne hpk
    rw [List.foldl_cons]
    rcases Int.lt_or_le p 0 with hneg | hnonneg
    · rw [invert_of_neg pixels collision hneg, ih hrest]
      exact iff_of_true (.inl rfl) (.inr (.inl ⟨p, List.mem_cons_self, hneg⟩))
    · obtain ⟨n, rfl⟩ := Int.eq_ofNat_of_zero_le hnonneg
      have hn : n < 2048 := by omega
      have hnegative : (∃ q ∈ (n : Int) :: rest, q < 0) ↔ ∃ q ∈ rest, q < 0 := by
        simp only [List.mem_cons, exists_eq_or_imp, or_iff_right_iff_imp]
        omega
      rw [invert_of_nonneg pixels collision hn, ih hrest, Bool.or_eq_true, hnegative]
      constructor
      · rintro ((h | h) | h | ⟨k, hk, h⟩)
        · exact .inl h
        · exact .inr (.inr ⟨n, hn, .inl ⟨by omega, h⟩⟩)
        · exact .inr (.inl h)
        · refine .inr (.inr ⟨k, hk, ?_⟩)
          by_cases hnk : n = k
          · subst hnk
            exact .inr (by omega)
          · rw [Vector.getElem_set_ne hn hk hnk] at h
            rwa [hother (by omega)]
      · rintro (h | h | ⟨k, hk, h⟩)
        · exact .inl (.inl h)
        · exact .inr (.inl h)
        · by_cases hnk : n = k
          · subst hnk
            cases hlit : pixels[n] with
            | true => exact .inl (.inr rfl)
            | false =>
              -- the first inversion lights the pixel, so another one puts it out
              have htwice : 2 ≤ ((n : Int) :: rest).count (n : Int) :=
                h.resolve_left fun h => by simp [hlit] at h
              exact .inr (.inr ⟨n, hn, .inl ⟨by omega, by simp⟩⟩)
          · rw [hother (by omega)] at h
            exact .inr (.inr ⟨k, hk, by rwa [Vector.getElem_set_ne hn hk hnk]⟩)

/-! ### The places of a sprite -/

theorem mem_spriteBits {rows : List Int} {row col : Nat} :
    (row, col) ∈ spriteBits rows ↔
      ∃ bits, rows[row]? = some bits ∧ col < 8 ∧ rowBit bits col = true := by
  simp only [spriteBits, List.mem_flatMap, List.mem_map, List.mem_filter, List.mem_range,
    Prod.mk.injEq]
  constructor
  · rintro ⟨⟨bits, row'⟩, hmem, col', ⟨hcol, hbit⟩, rfl, rfl⟩
    exact ⟨bits, List.mk_mem_zipIdx_iff_getElem?.1 hmem, hcol, hbit⟩
  · rintro ⟨bits, hrow, hcol, hbit⟩
    exact ⟨(bits, row), List.mk_mem_zipIdx_iff_getElem?.2 hrow, col, ⟨hcol, hbit⟩, rfl, rfl⟩

/-- No pixel of a sprite is listed twice. -/
theorem nodup_spriteBits (rows : List Int) : (spriteBits rows).Nodup := by
  unfold spriteBits
  rw [List.nodup_flatMap]
  constructor
  · rintro ⟨bits, row⟩ -
    exact (List.nodup_range.filter _).map fun a b h => (Prod.mk.inj h).2
  · -- two entries of the list of rows lie in different rows
    have hrows : (rows.zipIdx.map Prod.snd).Nodup := by
      rw [List.zipIdx_map_snd]
      exact List.nodup_range'
    refine (List.pairwise_map.1 hrows).imp fun {a b} hne => ?_
    refine List.disjoint_left.2 ?_
    rintro ⟨row, col⟩ ha hb
    simp only [List.mem_map, Prod.mk.injEq] at ha hb
    obtain ⟨-, -, ha, -⟩ := ha
    obtain ⟨-, -, hb, -⟩ := hb
    exact hne (ha.trans hb.symm)

/-- Whatever the position, no place is past the last pixel of the last row. -/
theorem cellIndex_lt (x y : Int) (row col : Nat) : cellIndex x y row col < 2048 := by
  have hrow : (y.tmod height + row).tmod height < height := Int.tmod_lt_of_pos _ (by decide)
  have hcol : (x.tmod width + col).tmod width < width := Int.tmod_lt_of_pos _ (by decide)
  unfold cellIndex
  simp only [height, width] at hrow hcol ⊢
  omega

theorem spriteCells_lt {x y : Int} {rows : List Int} {p : Int} (hp : p ∈ spriteCells x y rows) :
    p < 2048 := by
  obtain ⟨⟨row, col⟩, -, rfl⟩ := List.mem_map.1 hp
  exact cellIndex_lt x y row col

/-- Drawing inverts a pixel as often as its place is listed. -/
theorem pixels_draw (d : Display) (x y : Int) (rows : List Int) {k : Nat} (hk : k < 2048) :
    (d.draw x y rows).1.pixels[k] =
      (d.pixels[k] ^^ decide ((spriteCells x y rows).count (k : Int) % 2 = 1)) :=
  getElem_foldl_invert (spriteCells x y rows) (fun _ => spriteCells_lt) d.pixels false hk

/-- Drawing collides if a place left of the first pixel is listed, a lit pixel is, or a pixel is
listed twice. -/
theorem collision_draw_iff (d : Display) (x y : Int) (rows : List Int) :
    (d.draw x y rows).2 = true ↔
      (∃ p ∈ spriteCells x y rows, p < 0) ∨ ∃ (k : Nat) (hk : k < 2048),
        (1 ≤ (spriteCells x y rows).count (k : Int) ∧ d.pixels[k] = true) ∨
          2 ≤ (spriteCells x y rows).count (k : Int) := by
  have hfold := collision_foldl_invert (spriteCells x y rows) (fun _ => spriteCells_lt) d.pixels
    false
  rw [draw, hfold, or_iff_right Bool.false_ne_true]

/-- The place of a pixel of a sprite at a position on the screen or beyond it. -/
def placeOf (x y row col : Nat) : Nat := (y + row) % 32 * 64 + (x + col) % 64

theorem cellIndex_natCast (x y row col : Nat) : cellIndex x y row col = placeOf x y row col := by
  have htmod (a n : Nat) : (a : Int).tmod n = ((a % n : Nat) : Int) := (Int.ofNat_tmod a n).symm
  unfold cellIndex placeOf
  rw [htmod y height, htmod x width, ← Int.natCast_add, ← Int.natCast_add, htmod, htmod]
  simp only [Nat.mod_add_mod, height, width]
  omega

/-- The places of the set pixels of a sprite, as natural numbers. -/
def spritePlaces (x y : Nat) (rows : List Int) : List Nat :=
  (spriteBits rows).map fun (row, col) => placeOf x y row col

theorem spriteCells_natCast (x y : Nat) (rows : List Int) :
    spriteCells x y rows = (spritePlaces x y rows).map Nat.cast := by
  simp [spriteCells, spritePlaces, cellIndex_natCast]

theorem count_spriteCells (x y : Nat) (rows : List Int) (k : Nat) :
    (spriteCells x y rows).count (k : Int) = (spritePlaces x y rows).count k := by
  rw [spriteCells_natCast]
  exact List.count_map_of_injective _ _ (fun _ _ => Int.ofNat.inj) k

theorem not_neg_of_mem_spriteCells {x y : Nat} {rows : List Int} {p : Int}
    (hp : p ∈ spriteCells x y rows) : ¬ p < 0 := by
  rw [spriteCells_natCast] at hp
  obtain ⟨n, -, rfl⟩ := List.mem_map.1 hp
  exact Int.not_lt.2 (Int.natCast_nonneg n)

/-- Every place of a pixel is one of the screen. -/
theorem exists_place_eq {k : Nat} (hk : k < 2048) :
    ∃ (px : Fin 64) (py : Fin 32), py.val * 64 + px.val = k :=
  ⟨⟨k % 64, by omega⟩, ⟨k / 64, by omega⟩, Nat.div_add_mod' k 64⟩

/-- Where no place is left of the first pixel, drawing collides if a lit pixel is listed or a pixel
is listed twice. -/
theorem collision_draw_natCast (d : Display) (x y : Nat) (rows : List Int) :
    (d.draw x y rows).2 = true ↔ ∃ (px : Fin 64) (py : Fin 32),
      (1 ≤ (spritePlaces x y rows).count (py.val * 64 + px.val) ∧ d.pixel px py = true) ∨
        2 ≤ (spritePlaces x y rows).count (py.val * 64 + px.val) := by
  rw [collision_draw_iff]
  simp only [count_spriteCells]
  constructor
  · rintro (⟨p, hp, hneg⟩ | ⟨k, hk, h⟩)
    · exact absurd hneg (not_neg_of_mem_spriteCells hp)
    · obtain ⟨px, py, rfl⟩ := exists_place_eq hk
      exact ⟨px, py, h⟩
  · rintro ⟨px, py, h⟩
    exact .inr ⟨py.val * 64 + px.val, by omega, h⟩

/-! ### Sprites that are not higher than the screen -/

/-- Two pixels of a sprite of at most 32 rows lie on different places. -/
theorem placeOf_injective {x y row col row' col' : Nat} (hrow : row < 32) (hrow' : row' < 32)
    (hcol : col < 8) (hcol' : col' < 8) (h : placeOf x y row col = placeOf x y row' col') :
    row = row' ∧ col = col' := by
  unfold placeOf at h
  omega

theorem nodup_spritePlaces {x y : Nat} {rows : List Int} (hrows : rows.length ≤ 32) :
    (spritePlaces x y rows).Nodup := by
  refine List.Nodup.map_on ?_ (nodup_spriteBits rows)
  rintro ⟨row, col⟩ hmem ⟨row', col'⟩ hmem' heq
  obtain ⟨bits, hrow, hcol, -⟩ := mem_spriteBits.1 hmem
  obtain ⟨bits', hrow', hcol', -⟩ := mem_spriteBits.1 hmem'
  have hlt := (List.getElem?_eq_some_iff.1 hrow).1
  have hlt' := (List.getElem?_eq_some_iff.1 hrow').1
  obtain ⟨rfl, rfl⟩ := placeOf_injective (by omega) (by omega) hcol hcol' heq
  rfl

/-- Whether a sprite at `(x, y)` has a set pixel on the pixel `(px, py)` of the screen: the one
pixel of the sprite that may fall there is found by going back from `(px, py)` to `(x, y)`. -/
def covers (x y : Nat) (rows : List Int) (px : Fin 64) (py : Fin 32) : Bool :=
  let col := (((px.val : Int) - x) % 64).toNat
  let row := (((py.val : Int) - y) % 32).toNat
  decide (col < 8) && rows[row]?.any fun bits => rowBit bits col

theorem mem_spritePlaces_iff {x y : Nat} {rows : List Int} (hrows : rows.length ≤ 32)
    (px : Fin 64) (py : Fin 32) :
    py.val * 64 + px.val ∈ spritePlaces x y rows ↔ covers x y rows px py = true := by
  unfold covers
  simp only [spritePlaces, List.mem_map, Prod.exists, mem_spriteBits, Bool.and_eq_true,
    decide_eq_true_eq, Option.any_eq_true]
  constructor
  · rintro ⟨row, col, ⟨bits, hrow, hcol, hbit⟩, hplace⟩
    have hlt := (List.getElem?_eq_some_iff.1 hrow).1
    unfold placeOf at hplace
    have hcol_eq : (((px.val : Int) - x) % 64).toNat = col := by omega
    have hrow_eq : (((py.val : Int) - y) % 32).toNat = row := by omega
    rw [hcol_eq, hrow_eq]
    exact ⟨hcol, bits, hrow, hbit⟩
  · rintro ⟨hcol, bits, hrow, hbit⟩
    refine ⟨_, _, ⟨bits, hrow, hcol, hbit⟩, ?_⟩
    unfold placeOf
    omega

/-- A pixel of the screen is inverted once if it is covered, and else not at all. -/
theorem count_spritePlaces {x y : Nat} {rows : List Int} (hrows : rows.length ≤ 32)
    (px : Fin 64) (py : Fin 32) :
    (spritePlaces x y rows).count (py.val * 64 + px.val) =
      if covers x y rows px py then 1 else 0 := by
  rw [(nodup_spritePlaces hrows).count]
  simp only [mem_spritePlaces_iff hrows]

/-- Drawing inverts the pixels that the sprite covers. -/
theorem pixel_draw (d : Display) (x y : Nat) {rows : List Int} (hrows : rows.length ≤ 32)
    (px : Fin 64) (py : Fin 32) :
    (d.draw x y rows).1.pixel px py = (d.pixel px py ^^ covers x y rows px py) := by
  have hplace : py.val * 64 + px.val < 2048 := by omega
  rw [pixel, pixels_draw d x y rows hplace, count_spriteCells, count_spritePlaces hrows, pixel]
  cases covers x y rows px py <;> simp

/-- Drawing collides if the sprite covers a lit pixel. -/
theorem collision_draw (d : Display) (x y : Nat) {rows : List Int} (hrows : rows.length ≤ 32) :
    (d.draw x y rows).2 = true ↔
      ∃ px py, d.pixel px py = true ∧ covers x y rows px py = true := by
  rw [collision_draw_natCast]
  refine exists_congr fun px => exists_congr fun py => ?_
  rw [count_spritePlaces hrows px py]
  split_ifs with hcovers
  · simp [hcovers]
  · simp [hcovers]

end Chip8.Display
