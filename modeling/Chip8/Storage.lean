import Chip8.Fault

/-!
# Blocks of storage

Memories, images and programs are kept in blocks of bytes whose size is fixed when they are made.
Any number may be asked for.  `Storage.count` refuses what counts no bytes, on every host.  How much
room there is for what does is a matter of the host (`Storage.Host`), so the operations that make
large blocks are given one, and `Storage.reserve` refuses what it has no room for.
-/

namespace Chip8.Storage

/-- The most bytes that can be counted: up to here, every natural number is a binary64 value. -/
def countable : Nat := 0x1FFFFFFFFFFFFF

/-- Whether the integer part of a number counts bytes. -/
def isCount (size : Number) : Bool :=
  size.isFinite ∧ 0 ≤ size.truncate ∧ size.truncate ≤ countable

/-- The bytes of a block of a given size: the integer part of a number, if it counts bytes. -/
def count (size : Number) : Except Failure Nat :=
  if isCount size then .ok size.truncate.toNat
  else .error (.range ("Invalid typed array length: " ++ size.decimal))

/-- What a host has room for when it is asked for a block of so many bytes.  Nothing is assumed of
it; a host may well refuse one block and grant a larger one. -/
structure Host where
  hasRoom : Nat → Bool

/-- A host with room for every block up to a limit. -/
def Host.upTo (limit : Nat) : Host where
  hasRoom bytes := bytes ≤ limit

/-- The bytes of a block that a host makes room for. -/
def reserve (host : Host) (size : Number) : Except Failure Nat :=
  (count size).bind fun bytes =>
    if host.hasRoom bytes then .ok bytes else .error (.range "Array buffer allocation failed")

/-- What is put into a block would end beyond it. -/
def overrun : Failure := .range "offset is out of bounds"

/-! ### Laws -/

/-- A natural number counts bytes up to the most that can be counted. -/
theorem isCount_ofInt (n : Nat) : isCount (.ofInt n) = decide (n ≤ countable) := by
  have hcountable : (n : Int) ≤ countable ↔ n ≤ countable := by exact_mod_cast Iff.rfl
  simp [isCount, hcountable]

theorem count_ofInt {n : Nat} (h : n ≤ countable) : count (.ofInt n) = .ok n := by
  simp [count, isCount_ofInt, h]

theorem count_of_not_isCount {size : Number} (h : isCount size = false) :
    count size = .error (.range ("Invalid typed array length: " ++ size.decimal)) := by
  rw [count, h]
  rfl

theorem reserve_ofInt (host : Host) {n : Nat} (h : n ≤ countable) :
    reserve host (.ofInt n) =
      if host.hasRoom n then .ok n else .error (.range "Array buffer allocation failed") := by
  rw [reserve, count_ofInt h]
  rfl

/-- What counts no bytes is refused on every host. -/
theorem reserve_of_not_isCount (host : Host) {size : Number} (h : isCount size = false) :
    reserve host size = .error (.range ("Invalid typed array length: " ++ size.decimal)) := by
  rw [reserve, count_of_not_isCount h]
  rfl

end Chip8.Storage
