import Chip8.Rom.Limit
import Chip8.Storage

/-!
# Programs from files

A reader tells the size of a file and gives its data part by part, each time as much as it likes
of what was asked for.  `Rom.ofReader` asks for the rest until the file is complete; a part of
nothing before that means that the file has shrunk.  The size is checked before anything is read.

Sizes, positions and counts are binary64 values, and a reader may count parts of bytes.  Where the
count of what has been read passes an integer, the byte before that is complete and is taken; a
fraction at the end of the size holds no byte.  So a size just below an integer can be passed by
rounding, and then the last byte has no room: the call fails.  A count too small to move the
position is taken as it is, and reading goes on from the same place; with a reader that gives no
more than that for ever, reading does not end.  Here it ends after `Rom.patience` such calls in a
row, with the fault of a file that has shrunk.
-/

namespace Chip8.Rom

/-- A file that is open for reading.  Call number `call` of `grant` asks for `length` bytes from
`position` on; it answers how much is given, of which no more counts than was asked for and is
there. -/
structure Reader where
  data : List UInt8
  size : Except Failure Rat
  grant : (call : Nat) → (length position : Rat) → Except Failure Rat

/-- What was asked of a reader, and how much it gave.  It put this into the program at `offset`. -/
structure ReadCall where
  offset : Rat
  length : Rat
  position : Rat
  count : Rat
deriving DecidableEq, Repr

/-- A program that was read, or why it was not, and the calls that were answered. -/
structure Assembled where
  rom : Except Failure (List UInt8)
  calls : List ReadCall

/-- The file ended too early. -/
def shrunkFault (total size : Rat) : Fault where
  code := .truncatedSource
  detail := "read returned no data after " ++ (Number.rat total).decimal ++ " of " ++
    (Number.rat size).decimal ++ " bytes"

namespace Reader

/-- How much counts of a part that a reader grants. -/
def accepted (reader : Reader) (granted length position : Rat) : Rat :=
  let left := reader.data.length - position
  Number.greater 0 (Number.lesser granted (Number.rounded (Number.lesser length left)))

/-- The bytes that are complete at `stop` and were not at `start`. -/
def between (reader : Reader) (start stop : Rat) : List UInt8 :=
  (reader.data.drop start.floor.toNat).take (stop.floor.toNat - start.floor.toNat)

end Reader

/-- How far a position is from the end, in the least steps that binary64 values make. -/
def distance (size position : Rat) : Nat :=
  ((size - position).num * Int.pow 2 1074 / (size - position).den).toNat

/-- How many calls in a row may give too little to move the position.  A reader that goes on like
this is given up, which stands for reading that does not end: no bound on such calls is part of how
programs are read.  A reader that counts whole bytes makes no such call. -/
def patience : Nat := 0x10000

/-- Goes on reading into a block of `capacity` bytes.  The bytes `rom` are in it, `total` counts
what has been read, and `idle` is how many calls may still leave that count as it is.  The fault
where none may stands for reading that goes on for ever; what it tells is not to be relied on. -/
def assemble (reader : Reader) (size : Rat) (capacity : Nat) (rom : Array UInt8)
    (calls : Array ReadCall) (total : Rat) (idle : Nat) : Assembled :=
  if size ≤ total then ⟨.ok rom.toList, calls.toList⟩
  else
    let length := Number.rounded (size - total)
    match reader.grant calls.size length total with
    | .error e => ⟨.error e, calls.toList⟩
    | .ok granted =>
      let count := reader.accepted granted length total
      let stop := Number.rounded (total + count)
      let part := reader.between total stop
      if capacity < rom.size + part.length then ⟨.error Storage.overrun, calls.toList⟩
      else
        let calls := calls.push ⟨total, length, total, count⟩
        if count = 0 then ⟨.error (.fault (shrunkFault total size)), calls.toList⟩
        else if distance size stop < distance size total then
          assemble reader size capacity (rom ++ part) calls stop patience
        else
          match idle with
          | 0 => ⟨.error (.fault (shrunkFault total size)), calls.toList⟩
          | idle + 1 => assemble reader size capacity rom calls total idle
termination_by (distance size total, idle)

/-- The program that a reader gives.  It is so small that every host has room for it. -/
def ofReader (reader : Reader) : Assembled :=
  match reader.size with
  | .error e => ⟨.error e, []⟩
  | .ok size =>
    match validate size with
    | .error f => ⟨.error (.fault f), []⟩
    | .ok () =>
      match Storage.count (.rat size) with
      | .error e => ⟨.error e, []⟩
      | .ok capacity => assemble reader size capacity #[] #[] 0 patience

/-- The reader of a file that is given as a whole, whatever is asked for. -/
def Reader.ofBytes (data : List UInt8) : Reader where
  data := data
  size := .ok data.length
  grant _ length _ := .ok length

/-- The program in a file, or why it cannot be read. -/
def ofFile (file : Except SystemError (List UInt8)) : Except Failure (List UInt8) :=
  match file with
  | .error e => .error (.system e)
  | .ok data => (ofReader (.ofBytes data)).rom

end Chip8.Rom
