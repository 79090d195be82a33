import Chip8.Display.Basic
import Chip8.Text.Basic

/-!
# Fingerprints

The 32-bit FNV-1a hash of some bytes: every byte is mixed in by an exclusive or and a product with
an odd constant, so a change of a single byte always shows.
-/

namespace Chip8

namespace Fingerprint

/-- The hash of no byte. -/
def basis : UInt32 := 0x811C9DC5

/-- The hash with one more byte. -/
def absorb (hash : UInt32) (b : UInt8) : UInt32 := (hash ^^^ b.toUInt32) * 0x01000193

/-- The hash of some bytes. -/
def ofBytes (bytes : Array UInt8) : UInt32 := bytes.foldl absorb basis

/-- The hash of the low 8 bits of some integers. -/
def ofInts (values : List Int) : UInt32 := ofBytes (values.map UInt8.ofInt).toArray

/-- A hash as eight digits of base sixteen. -/
def text (hash : UInt32) : String := String.ofList (Text.padZeros 8 (Nat.toDigits 16 hash.toNat))

end Fingerprint

/-- The fingerprint of the pixels of a display. -/
def Display.fingerprint (d : Display) : String := Fingerprint.text (Fingerprint.ofBytes d.toBytes)

end Chip8
