import Chip8.Rom.Limit

/-!
# Programs from chunks

`Rom.ofChunks` collects a program from a source that yields it piece by piece, and stops asking as
soon as the pieces are too many bytes.  A piece is bytes, or text whose UTF-16 units stand for one
byte each; a source may also fail.  With an expected length, that length is checked first, and a
source that ends before it is truncated.
-/

namespace Chip8.Rom

/-- What a source yields when it is asked for a piece.  A piece is a value: once it has been
yielded, its source does not write to it again.  A source that refills one buffer for all of its
pieces is not modelled. -/
inductive Chunk where
  | bytes (data : List UInt8)
  | text (units : List UInt16)
  | failing (e : Failure)
deriving DecidableEq, Repr

/-- The UTF-16 units of a character. -/
def unitsOfChar (c : Char) : List UInt16 :=
  let n := c.toNat
  if n < 0x10000 then [n.toUInt16]
  else
    let offset := n - 0x10000
    [(0xD800 + offset / 0x400).toUInt16, (0xDC00 + offset % 0x400).toUInt16]

/-- A piece of text. -/
def Chunk.ofString (s : String) : Chunk := .text (s.toList.flatMap unitsOfChar)

/-- The bytes of a piece; of a unit of text, its low 8 bits. -/
def Chunk.data : Chunk → Except Failure (List UInt8)
  | .bytes data => .ok data
  | .text units => .ok (units.map UInt16.toUInt8)
  | .failing e => .error e

/-- A program that was read, or why it was not, and how many pieces were asked for. -/
structure Collected where
  rom : Except Failure (List UInt8)
  pulled : Nat

/-- The source ended too early. -/
def truncationFault (total : Nat) (expected : Rat) : Fault where
  code := .truncatedSource
  detail := "source ended after " ++ (Number.ofInt total).decimal ++ " of " ++
    (Number.rat expected).decimal ++ " bytes"

/-- What a source that has ended amounts to. -/
def finish (expected? : Option Rat) (rom : List UInt8) : Except Failure (List UInt8) :=
  match expected? with
  | some expected =>
    if (rom.length : Rat) < expected then .error (.fault (truncationFault rom.length expected))
    else .ok rom
  | none => .ok rom

/-- Goes on collecting after `pulled` pieces with the bytes `rom`. -/
def collect (expected? : Option Rat) (rom : List UInt8) (pulled : Nat) : List Chunk → Collected
  | [] => ⟨finish expected? rom, pulled⟩
  | chunk :: rest =>
    match chunk.data with
    | .error e => ⟨.error e, pulled + 1⟩
    | .ok data =>
      match validate (rom ++ data).length with
      | .error f => ⟨.error (.fault f), pulled + 1⟩
      | .ok () => collect expected? (rom ++ data) (pulled + 1) rest

/-- The program of a source, with the length it is expected to have. -/
def ofChunks (source : List Chunk) (expected? : Option Rat) : Collected :=
  match expected?.elim (.ok ()) validate with
  | .error f => ⟨.error (.fault f), 0⟩
  | .ok () => collect expected? [] 0 source

end Chip8.Rom
