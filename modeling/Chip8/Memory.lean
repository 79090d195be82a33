import Chip8.Storage

/-!
# Memory

A flat row of bytes.  Every access names an address and a length, and is either inside the memory
as a whole or a fault: `Memory.locate` decides this, and the operations change or return nothing
before it has.  Addresses come as numbers, since a host may ask for any; the address of a fault is
the one that was asked for.

The size of a memory is also a number that is asked for, and a host may have no room for it.  It is
the bound that accesses are held to; the bytes are as many as its integer part.
-/

namespace Chip8

/-- The bytes of the machine. -/
structure Memory where
  bytes : Array UInt8
  /-- The size that was asked for.  A fraction of it holds no byte. -/
  size : Number := .ofInt bytes.size
deriving DecidableEq, Repr, Inhabited

namespace Memory

/-- The size of the standard memory, 4 KiB. -/
def standardSize : Nat := 0x1000

/-- The address that programs are loaded at and start from. -/
def programStart : Nat := 0x200

/-- The value of the size. -/
def extent (m : Memory) : Rat := m.size.value

/-- The greatest integer that is not beyond the size: where the last access may end. -/
def reach (m : Memory) : Int := m.size.floor

/-- A memory of zeros. -/
def zeroed (size : Nat) : Memory := { bytes := Array.replicate size 0 }

/-- A memory of zeros with a size that is asked for, if the host has room for it. -/
def ofSize (host : Storage.Host) (size : Number) : Except Failure Memory :=
  (Storage.reserve host size).map fun count => { zeroed count with size }

/-- The standard memory, all zeros. -/
def standard : Memory := zeroed standardSize

/-- An access of `len` bytes at `addr` that does not fit into a memory of a given size. -/
def accessFault (size addr len : Number) : Fault where
  code := .outOfBounds
  detail := "memory access at 0x" ++ addr.hex ++ " (+" ++ len.decimal ++
    ") outside 0x000-0x" ++ (size.add (.ofInt (-1))).hex
  context := { addr? := some addr }

/-- The position of an access of `len` bytes at `addr`: the address, if it is a natural number and
the access ends within the memory. -/
def locate (m : Memory) (addr : Number) (len : Int) : Except Fault Nat :=
  match addr.toInt? with
  | some a =>
    if 0 ≤ a ∧ a + len ≤ m.reach then .ok a.toNat
    else .error (accessFault m.size addr (.ofInt len))
  | none => .error (accessFault m.size addr (.ofInt len))

/-- The byte at a position; outside the memory, zero. -/
def byteAt (m : Memory) (position : Nat) : UInt8 := m.bytes.getD position 0

/-- The memory with bytes stored from a position on; none is stored outside the memory. -/
def store (m : Memory) (position : Nat) : List UInt8 → Memory
  | [] => m
  | b :: rest => store { m with bytes := m.bytes.setIfInBounds position b } (position + 1) rest

/-- The byte at an address. -/
def read8 (m : Memory) (addr : Number) : Except Fault UInt8 :=
  (m.locate addr 1).map m.byteAt

/-- The big-endian word at a position. -/
def wordAt (m : Memory) (position : Nat) : Nat :=
  (m.byteAt position).toNat * 0x100 + (m.byteAt (position + 1)).toNat

/-- The big-endian word at an address. -/
def read16 (m : Memory) (addr : Number) : Except Fault Nat :=
  (m.locate addr 2).map m.wordAt

/-- The memory with bytes loaded at an address; the whole range is checked first. -/
def load (m : Memory) (addr : Number) (data : List UInt8) : Except Fault Memory :=
  (m.locate addr data.length).map fun position => m.store position data

/-- The memory with the low 8 bits of a value at an address. -/
def write8 (m : Memory) (addr : Number) (value : Int) : Except Fault Memory :=
  m.load addr [UInt8.ofInt value]

/-- The end of a range within `count` places: a negative end counts from the back. -/
def rangeEnd (count : Nat) (stop : Int) : Nat :=
  if stop < 0 then (count + stop).toNat else min stop.toNat count

/-- The bytes from a position to the end of the range of the given length. -/
def bytesFrom (m : Memory) (position : Nat) (len : Int) : List UInt8 :=
  (m.bytes.extract position (rangeEnd m.bytes.size (position + len))).toList

/-- The `len` bytes at an address. -/
def slice (m : Memory) (addr : Number) (len : Int) : Except Fault (List UInt8) :=
  (m.locate addr len).map fun position => m.bytesFrom position len

/-- The bytes at an address, where the length may be any number.  A fraction of the end of the
range is dropped after the end has been checked. -/
def excerpt (m : Memory) (addr len : Number) : Except Fault (List UInt8) :=
  match addr.toInt?, len.toInt? with
  | _, some n => m.slice addr n
  | none, none => .error (accessFault m.size addr len)
  | some a, none =>
    let stop := addr.add len
    if 0 ≤ a ∧ stop.value ≤ m.extent then
      .ok (m.bytes.extract a.toNat (rangeEnd m.bytes.size stop.truncate)).toList
    else .error (accessFault m.size addr len)

/-- The memory with all bytes zero. -/
def clear (m : Memory) : Memory := { m with bytes := Array.replicate m.bytes.size 0 }

/-! ### Laws -/

@[simp] theorem size_bytes_zeroed (n : Nat) : (zeroed n).bytes.size = n := by simp [zeroed]

@[simp] theorem size_zeroed (n : Nat) : (zeroed n).size = .ofInt n := by simp [zeroed]

/-- A memory that was given its bytes reaches to their end. -/
theorem reach_of_size {m : Memory} {n : Nat} (h : m.size = .ofInt n) : m.reach = n := by
  rw [reach, h, Number.floor_ofInt]

@[simp] theorem reach_zeroed (n : Nat) : (zeroed n).reach = n := reach_of_size (size_zeroed n)

/-- A memory with room on its host has as many bytes as are asked for, if they can be counted. -/
theorem ofSize_ofInt {host : Storage.Host} {n : Nat} (h : n ≤ Storage.countable)
    (hroom : host.hasRoom n = true) : ofSize host (.ofInt n) = .ok (zeroed n) := by
  simp only [ofSize, Storage.reserve_ofInt host h, if_pos hroom, Except.map, Except.ok.injEq]
  simp [zeroed]

@[simp] theorem size_bytes_clear (m : Memory) : m.clear.bytes.size = m.bytes.size := by
  simp [clear]

@[simp] theorem size_clear (m : Memory) : m.clear.size = m.size := rfl

@[simp] theorem size_store (m : Memory) (position : Nat) (data : List UInt8) :
    (m.store position data).size = m.size := by
  induction data generalizing m position with
  | nil => rfl
  | cons b rest ih => rw [store, ih]

@[simp] theorem size_bytes_store (m : Memory) (position : Nat) (data : List UInt8) :
    (m.store position data).bytes.size = m.bytes.size := by
  induction data generalizing m position with
  | nil => rfl
  | cons b rest ih => rw [store, ih]; simp

/-- An access is granted exactly when its address is a natural number and it ends inside. -/
theorem locate_eq_ok_iff (m : Memory) (addr : Number) (len : Int) (position : Nat) :
    m.locate addr len = .ok position ↔
      addr.toInt? = some (position : Int) ∧ position + len ≤ m.reach := by
  unfold locate
  cases addr.toInt? with
  | none => simp
  | some a =>
    simp only [Option.some.injEq]
    split
    · simp only [Except.ok.injEq]; omega
    · simp only [reduceCtorEq, false_iff]; omega

@[simp] theorem excerpt_ofInt (m : Memory) (addr : Number) (len : Int) :
    m.excerpt addr (.ofInt len) = m.slice addr len := by
  simp [excerpt]

/-- Loading keeps the size and the count of bytes. -/
theorem size_of_load {m m' : Memory} {addr : Number} {data : List UInt8}
    (h : m.load addr data = .ok m') : m'.size = m.size ∧ m'.bytes.size = m.bytes.size := by
  unfold load at h
  cases hl : m.locate addr data.length with
  | error f => rw [hl] at h; cases h
  | ok position => rw [hl] at h; cases h; simp

end Memory

end Chip8
