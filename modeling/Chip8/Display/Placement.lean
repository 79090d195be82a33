import Chip8.Display.Basic
import Chip8.Number.Rounding

/-!
# Positions between pixels

A host may name a position by any two numbers.  `Display.drawAt` draws a sprite there and
`Display.isSetAt` tells whether a pixel is lit there.  At integers they are `Display.draw` and
`Display.isSet` (`drawAt_ofInt`, `isSetAt_ofInt`).

The place of a position is found by the same calculation, in binary64 arithmetic.  So half a row
down is half a row to the right, while most positions with a fraction are no place of a pixel.
Such a position is treated like one left of the first pixel: it reads as lit and keeps nothing.
-/

namespace Chip8.Display

/-- The remainder of a division, with the sign of the dividend. -/
def remainder (q : Rat) (n : Nat) : Rat :=
  let quotient := q / n
  q - n * (quotient.num.tdiv quotient.den : Int)

/-- The place in a row and column; none where a number with a fraction comes out. -/
def placeOf? (px py : Rat) : Option Int :=
  (Number.nearest (Number.rounded (py * width) + px)).toInt?

/-- The place of the pixel in a row and column of a sprite at `(x, y)`, if it has one. -/
def cellPlace? (x y : Number) (row col : Nat) : Option Int :=
  match x.toRat?, y.toRat? with
  | some x, some y =>
    placeOf? (remainder (Number.rounded (remainder x width + col)) width)
      (remainder (Number.rounded (remainder y height + row)) height)
  | _, _ => none

/-- Inverts the pixel at a place, if there is one. -/
def invertAt (state : Vector Bool 2048 × Bool) (place? : Option Int) : Vector Bool 2048 × Bool :=
  place?.elim (state.1, true) (invert state)

/-- The display after a sprite is drawn at any position, and whether a lit pixel went out. -/
def drawAt (d : Display) (x y : Number) (rows : List Int) : Display × Bool :=
  match x.toInt?, y.toInt? with
  | some x, some y => d.draw x y rows
  | _, _ =>
    let places := (spriteBits rows).map fun (row, col) => cellPlace? x y row col
    let (pixels, collision) := places.foldl invertAt (d.pixels, false)
    (⟨pixels, d.version + 1⟩, collision)

/-- Whether what is at a place reads as lit. -/
def readsLit (d : Display) (place : Int) : Bool :=
  if 0 ≤ place then d.pixels[place.toNat]?.getD true else true

/-- Whether the pixel at any position is lit; off the grid none is. -/
def isSetAt (d : Display) (x y : Number) : Bool :=
  match x.toInt?, y.toInt? with
  | some x, some y => d.isSet x y
  | _, _ =>
    if (0 ≤ x.value ∧ x.value < width) ∧ 0 ≤ y.value ∧ y.value < height then
      (placeOf? x.value y.value).elim true d.readsLit
    else false

/-! ### Integers -/

@[simp] theorem drawAt_ofInt (d : Display) (x y : Int) (rows : List Int) :
    d.drawAt (.ofInt x) (.ofInt y) rows = d.draw x y rows := by
  simp [drawAt]

@[simp] theorem isSetAt_ofInt (d : Display) (x y : Int) :
    d.isSetAt (.ofInt x) (.ofInt y) = d.isSet x y := by
  simp [isSetAt]

end Chip8.Display
