import Chip8.Memory

/-!
# The font

Sixteen glyphs of five bytes, one for each digit of base sixteen.  A machine keeps them in its
memory from `Font.base` on, where programs draw them from.
-/

namespace Chip8.Font

/-- The address of the first glyph. -/
def base : Nat := 0x050

/-- The height of a glyph, one byte a row. -/
def glyphHeight : Nat := 5

/-- The glyphs in the order of their digits. -/
def glyphs : List (List UInt8) :=
  [[0xF0, 0x90, 0x90, 0x90, 0xF0],
    [0x20, 0x60, 0x20, 0x20, 0x70],
    [0xF0, 0x10, 0xF0, 0x80, 0xF0],
    [0xF0, 0x10, 0xF0, 0x10, 0xF0],
    [0x90, 0x90, 0xF0, 0x10, 0x10],
    [0xF0, 0x80, 0xF0, 0x10, 0xF0],
    [0xF0, 0x80, 0xF0, 0x90, 0xF0],
    [0xF0, 0x10, 0x20, 0x40, 0x40],
    [0xF0, 0x90, 0xF0, 0x90, 0xF0],
    [0xF0, 0x90, 0xF0, 0x10, 0xF0],
    [0xF0, 0x90, 0xF0, 0x90, 0x90],
    [0xE0, 0x90, 0xE0, 0x90, 0xE0],
    [0xF0, 0x80, 0x80, 0x80, 0xF0],
    [0xE0, 0x90, 0x90, 0x90, 0xE0],
    [0xF0, 0x80, 0xF0, 0x80, 0xF0],
    [0xF0, 0x80, 0xF0, 0x80, 0x80]]

/-- The bytes of all glyphs. -/
def bytes : List UInt8 := glyphs.flatten

/-- The address of the glyph of a digit, which is the low 4 bits of a number. -/
def glyphAddress (digit : Int) : Int := base + digit % 16 * glyphHeight

theorem length_bytes : bytes.length = 16 * glyphHeight := rfl

end Chip8.Font
