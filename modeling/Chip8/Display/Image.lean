import Chip8.Display.Basic
import Chip8.Storage

/-!
# Images of the display

`Display.render` paints every pixel of the display as a square block in one of two colours: red,
green, blue and opacity bytes, row by row.  An image is such bytes with their width and height.
`Display.storedBytes` and `Display.storedImage` refuse a scale that makes too many bytes to count,
or more than the host has room for.
-/

namespace Chip8

/-- A colour; each component counts by its low 8 bits. -/
structure Colour where
  red : Int
  green : Int
  blue : Int
  opacity : Int
deriving DecidableEq, Repr

/-- The components of a colour as they stand in an image; the fourth and later ones are the
opacity. -/
def Colour.component (c : Colour) : Nat → UInt8
  | 0 => UInt8.ofInt c.red
  | 1 => UInt8.ofInt c.green
  | 2 => UInt8.ofInt c.blue
  | _ => UInt8.ofInt c.opacity

/-- The colours of lit and unlit pixels. -/
structure Palette where
  on : Colour
  off : Colour
deriving DecidableEq, Repr

/-- White on black. -/
def Palette.standard : Palette := ⟨⟨0xFF, 0xFF, 0xFF, 0xFF⟩, ⟨0x00, 0x00, 0x00, 0xFF⟩⟩

/-- A picture with four bytes a pixel. -/
structure Image where
  width : Nat
  height : Nat
  rgba : Array UInt8
deriving DecidableEq, Repr

namespace Display

/-- The side of the block of a pixel: the integer part of the scale, but at least one. -/
def blockSide (scale : Rat) : Nat := max 1 scale.floor.toNat

/-- The byte at a place of the image with blocks of side `s`. -/
def imageByte (d : Display) (s : Nat) (palette : Palette) (i : Nat) : UInt8 :=
  let p := i / 4
  let x := p % (width * s)
  let y := p / (width * s)
  let lit := d.isSet (x / s : Nat) (y / s : Nat)
  (if lit then palette.on else palette.off).component (i % 4)

/-- The bytes of the image with a scale and a palette. -/
def render (d : Display) (scale : Rat) (palette : Palette) : Array UInt8 :=
  let s := blockSide scale
  Array.ofFn (n := width * s * (height * s) * 4) fun i => d.imageByte s palette i

/-- The bytes of the image with a scale and a palette, if the host has room for them. -/
def storedBytes (d : Display) (host : Storage.Host) (scale : Rat) (palette : Palette) :
    Except Failure (Array UInt8) :=
  let s := blockSide scale
  (Storage.reserve host (.nearest (width * s * (height * s) * 4 : Nat))).map fun _ =>
    d.render scale palette

/-- The image with a scale and a palette, if the host has room for its bytes.  It has the size of
its blocks before its bytes are asked for, and these are asked for at that size. -/
def storedImage (d : Display) (host : Storage.Host) (scale : Rat) (palette : Palette) :
    Except Failure Image :=
  let s := blockSide scale
  (d.storedBytes host (s : Nat) palette).map fun rgba =>
    { width := width * s, height := height * s, rgba }

end Display

end Chip8
