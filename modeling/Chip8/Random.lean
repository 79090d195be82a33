import Chip8.Fault

/-!
# Sources of random bytes

The machine draws a byte whenever a program asks for one.  A source is a seeded generator, a list
of bytes replayed forever, or any sequence of answers a host gives, each a number or a failure.
The generator is the 32-bit xorshift with shifts 13, 17 and 5; zero would be a fixed point, so the
seed zero stands for another state.
-/

namespace Chip8

/-- A source of random bytes and how far it has been drawn from. -/
inductive RandomSource where
  | xorshift (state : UInt32)
  | replay (bytes : Array UInt8) (drawn : Nat)
  | answers (answer : Nat → Except Failure Number) (drawn : Nat)

namespace RandomSource

/-- The state in place of zero. -/
def zeroState : UInt32 := 0x9E3779B9

/-- The generator of a seed, which counts by the low 32 bits of its integer part. -/
def seeded (seed : Number) : RandomSource :=
  .xorshift (if seed.toUInt32 = 0 then zeroState else seed.toUInt32)

/-- The next state of the generator. -/
def advance (s : UInt32) : UInt32 :=
  let s := s ^^^ (s <<< 13)
  let s := s ^^^ (s >>> 17)
  s ^^^ (s <<< 5)

/-- A replay of numbers, each by the low 8 bits of its integer part; it needs at least one. -/
def replaying (numbers : List Number) : Except Failure RandomSource :=
  if numbers.isEmpty then .error (.host "SequenceRandom needs at least one byte")
  else .ok (.replay (numbers.map Number.toUInt8).toArray 0)

/-- A byte as a number. -/
def ofByte (b : UInt8) : Number := .ofInt b.toNat

/-- The next byte and the source after it. -/
def next : RandomSource → Except Failure Number × RandomSource
  | .xorshift s => (.ok (ofByte (advance s >>> 24).toUInt8), .xorshift (advance s))
  | .replay bytes drawn =>
    (.ok (ofByte (bytes.getD (drawn % bytes.size) 0)), .replay bytes (drawn + 1))
  | .answers answer drawn => (answer drawn, .answers answer (drawn + 1))

/-- A source of numbers given again and again as they are; without any, of what is no number. -/
def cycling (values : Array Number) : RandomSource :=
  .answers (fun i => .ok (values.getD (i % values.size) .nan)) 0

/-- A source that refuses with a message. -/
def refusing (message : String) : RandomSource := .answers (fun _ => .error (.host message)) 0

end RandomSource

end Chip8
