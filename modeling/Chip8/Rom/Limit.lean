import Chip8.Memory

/-!
# The size of a program

A program fills the standard memory from the start address to the end at most.
-/

namespace Chip8.Rom

/-- The most bytes that a program may have. -/
def maxSize : Nat := Memory.standardSize - Memory.programStart

/-- A program of too many bytes. -/
def sizeFault (length : Rat) : Fault where
  code := .romTooLarge
  detail := "ROM is " ++ (Number.rat length).decimal ++ " bytes, limit is " ++
    (Number.ofInt maxSize).decimal

/-- Refuses a program length beyond the limit. -/
def validate (length : Rat) : Except Fault Unit :=
  if (maxSize : Rat) < length then .error (sizeFault length) else .ok ()

/-! ### Laws -/

/-- The length of a program that exists is a natural number. -/
theorem validate_natCast (length : Nat) :
    validate length = if 0xE00 < length then .error (sizeFault length) else .ok () := by
  have hmax : ((maxSize : Nat) : Rat) < (length : Rat) ↔ 0xE00 < length := by
    rw [Rat.natCast_lt_natCast]
    rfl
  simp only [validate, hmax]

end Chip8.Rom
