import Chip8.Display.Image

/-!
# PNG files

`Png.encode` writes an image as a PNG file with eight bits a component and an opacity channel.
Each row is stored unfiltered, and the rows are wrapped in stored blocks, so the file holds the
bytes of the image as they are between a header and checksums.
-/

namespace Chip8.Png

/-- The eight bytes that every file starts with. -/
def signature : List UInt8 := [0x89, 0x50, 0x4E, 0x47, 0x0D, 0x0A, 0x1A, 0x0A]

/-- The count of bits of a component. -/
def bitDepth : Nat := 8

/-- The code for red, green, blue and opacity. -/
def colourType : Nat := 6

/-- A number as four bytes, the highest first. -/
def word32 (n : UInt32) : List UInt8 :=
  [(n >>> 24).toUInt8, (n >>> 16).toUInt8, (n >>> 8).toUInt8, n.toUInt8]

/-! ### Checksums -/

/-- One bit of the cyclic redundancy check. -/
def crcBit (c : UInt32) : UInt32 :=
  if c &&& 1 = 1 then (c >>> 1) ^^^ 0xEDB88320 else c >>> 1

/-- The cyclic redundancy check of a byte. -/
def crcEntry (n : Nat) : UInt32 := (List.range 8).foldl (fun c _ => crcBit c) n.toUInt32

/-- The checks of all bytes. -/
def crcTable : Array UInt32 := Array.ofFn (n := 256) fun i => crcEntry i

/-- The cyclic redundancy check of some bytes. -/
def crc32 (bytes : Array UInt8) : UInt32 :=
  let table := crcTable
  let step (c : UInt32) (b : UInt8) : UInt32 :=
    table.getD ((c ^^^ b.toUInt32) &&& 0xFF).toNat 0 ^^^ (c >>> 8)
  bytes.foldl step 0xFFFFFFFF ^^^ 0xFFFFFFFF

/-- The running sums of bytes modulo 65521. -/
def adler32 (bytes : Array UInt8) : UInt32 :=
  let (a, b) := bytes.foldl
    (fun (a, b) byte => let a := (a + byte.toUInt32) % 65521; (a, (b + a) % 65521))
    ((1, 0) : UInt32 × UInt32)
  b <<< 16 ||| a

/-! ### The file -/

/-- A chunk: its length, its kind, its data and the check of kind and data. -/
def chunk (kind : String) (data : Array UInt8) : Array UInt8 :=
  let body := kind.toUTF8.data ++ data
  (word32 data.size.toUInt32).toArray ++ body ++ (word32 (crc32 body)).toArray

/-- The header: size, depth and colour type, then the only compression, filter set and order. -/
def header (img : Image) : Array UInt8 :=
  (word32 img.width.toUInt32 ++ word32 img.height.toUInt32 ++
    [bitDepth.toUInt8, colourType.toUInt8, 0, 0, 0]).toArray

/-- The rows of an image, each after the mark of an unfiltered row. -/
def scanlines (img : Image) : Array UInt8 :=
  (List.range img.height).foldl
    (fun out y =>
      (out.push 0) ++ img.rgba.extract (y * img.width * 4) ((y + 1) * img.width * 4))
    #[]

/-- The bytes of a stored block. -/
def storedBlock (last : Bool) (data : Array UInt8) : Array UInt8 :=
  let n := data.size.toUInt32
  let complement := n ^^^ 0xFFFF
  #[if last then 1 else 0, n.toUInt8, (n >>> 8).toUInt8, complement.toUInt8,
    (complement >>> 8).toUInt8] ++ data

/-- The most bytes that one stored block holds. -/
def blockLimit : Nat := 65535

/-- Bytes in stored blocks, between the mark of the format and their check. -/
def stored (bytes : Array UInt8) : Array UInt8 :=
  let count := max 1 ((bytes.size + blockLimit - 1) / blockLimit)
  let blocks := (List.range count).foldl
    (fun out i =>
      out ++ storedBlock (i + 1 = count) (bytes.extract (i * blockLimit) ((i + 1) * blockLimit)))
    #[0x78, 0x01]
  blocks ++ (word32 (adler32 bytes)).toArray

/-- The file of an image. -/
def encode (img : Image) : Array UInt8 :=
  signature.toArray ++ chunk "IHDR" (header img) ++ chunk "IDAT" (stored (scanlines img)) ++
    chunk "IEND" #[]

end Chip8.Png
