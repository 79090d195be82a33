/-!
# The display

64 by 32 pixels, lit or not.  They change through `Display.clear` and `Display.draw` alone, and
each of these raises the version by one, so that two displays of one history with the same version
show the same.

A sprite is a list of rows of eight pixels, the leftmost in the highest bit.  Drawing inverts the
pixel under each set bit (`spriteCells` lists them in order) and tells whether a lit pixel went
out.  Positions wrap at the edges by remainders that keep the sign of the dividend.  So a sprite at
a negative position may fall on a place left of the first pixel: that counts as a collision and
changes nothing.
-/

namespace Chip8

/-- The pixels, row by row, and the count of changes so far. -/
structure Display where
  pixels : Vector Bool 2048
  /-- The count of changes.  It is a natural number without a bound, where a binary64 count would
  stay at `2 ^ 53` once it reaches it; no run comes near that. -/
  version : Nat
deriving DecidableEq, Repr

namespace Display

/-- The count of pixels in a row. -/
abbrev width : Nat := 64

/-- The count of rows. -/
abbrev height : Nat := 32

/-- A display without a lit pixel, not yet changed. -/
def blank : Display := ⟨Vector.replicate 2048 false, 0⟩

/-- The display with all pixels out. -/
def clear (d : Display) : Display := ⟨Vector.replicate 2048 false, d.version + 1⟩

/-! ### Drawing -/

/-- Whether the pixel in a column of a sprite row is set; a row has the low 8 bits of a number. -/
def rowBit (row : Int) (col : Nat) : Bool := (row % 0x100).toNat.testBit (7 - col)

/-- The place of the pixel in a row and column of a sprite at `(x, y)`. -/
def cellIndex (x y : Int) (row col : Nat) : Int :=
  (y.tmod height + row).tmod height * width + (x.tmod width + col).tmod width

/-- The rows and columns of the set pixels of a sprite, row by row. -/
def spriteBits (rows : List Int) : List (Nat × Nat) :=
  rows.zipIdx.flatMap fun (bits, row) => ((List.range 8).filter (rowBit bits)).map (row, ·)

/-- The places of the set pixels of a sprite at `(x, y)`, row by row. -/
def spriteCells (x y : Int) (rows : List Int) : List Int :=
  (spriteBits rows).map fun (row, col) => cellIndex x y row col

/-- Inverts the pixel at a place; the flag tells whether any pixel met so far was lit. -/
def invert (state : Vector Bool 2048 × Bool) (place : Int) : Vector Bool 2048 × Bool :=
  let (pixels, collision) := state
  if h : 0 ≤ place ∧ place.toNat < 2048 then
    let lit := pixels[place.toNat]
    (pixels.set place.toNat (!lit), collision || lit)
  else (pixels, true)

/-- The display after a sprite is drawn at `(x, y)`, and whether a lit pixel went out. -/
def draw (d : Display) (x y : Int) (rows : List Int) : Display × Bool :=
  let (pixels, collision) := (spriteCells x y rows).foldl invert (d.pixels, false)
  (⟨pixels, d.version + 1⟩, collision)

/-! ### Views -/

/-- The pixel in a column and row of the grid. -/
def pixel (d : Display) (x : Fin 64) (y : Fin 32) : Bool := d.pixels[y.val * 64 + x.val]

/-- Whether the pixel at `(x, y)` is lit; off the grid none is. -/
def isSet (d : Display) (x y : Int) : Bool :=
  if h : (0 ≤ x ∧ x < 64) ∧ 0 ≤ y ∧ y < 32 then
    d.pixel ⟨x.toNat, by omega⟩ ⟨y.toNat, by omega⟩
  else false

/-- The count of lit pixels. -/
def countLit (d : Display) : Nat := d.pixels.toList.count true

/-- One byte a pixel, 0 or 1, row by row. -/
def toBytes (d : Display) : Array UInt8 := d.pixels.toArray.map fun lit => if lit then 1 else 0

/-- The rows of pixels. -/
def toRows (d : Display) : List (List Bool) :=
  (List.finRange 32).map fun y => (List.finRange 64).map fun x => d.pixel x y

/-! ### Laws -/

/-- The pixels of the grid are all there are. -/
theorem pixels_eq_of_pixel {d e : Display} (h : d.pixel = e.pixel) : d.pixels = e.pixels := by
  apply Vector.ext
  intro k hk
  have hpixel := congrFun (congrFun h ⟨k % 64, by omega⟩) ⟨k / 64, by omega⟩
  simpa [pixel, Nat.div_add_mod'] using hpixel

@[simp] theorem version_clear (d : Display) : d.clear.version = d.version + 1 := rfl

@[simp] theorem version_draw (d : Display) (x y : Int) (rows : List Int) :
    (d.draw x y rows).1.version = d.version + 1 := rfl

@[simp] theorem spriteCells_nil (x y : Int) : spriteCells x y [] = [] := rfl

@[simp] theorem draw_nil (d : Display) (x y : Int) :
    d.draw x y [] = (⟨d.pixels, d.version + 1⟩, false) := rfl

@[simp] theorem size_toBytes (d : Display) : d.toBytes.size = 2048 := by simp [toBytes]

theorem eq_zero_or_one_of_mem_toBytes {d : Display} {b : UInt8} (h : b ∈ d.toBytes) :
    b = 0 ∨ b = 1 := by
  rw [toBytes, Array.mem_map] at h
  obtain ⟨lit, -, rfl⟩ := h
  cases lit with
  | false => exact .inl rfl
  | true => exact .inr rfl

end Display

end Chip8
