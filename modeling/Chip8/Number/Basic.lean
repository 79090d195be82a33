/-!
# Numbers

Every number that reaches the machine from outside (a flag, a setting, a key index, an address
given by a host) is a binary64 value.  `Number` holds such a value exactly: the finite ones other
than `-0` as a rational, the remaining ones by name.  Nothing here rounds; the one place where a
rational becomes the nearest binary64 value is `Chip8.Number.Rounding`.

The ways of looking at a number are

* `Number.toRat?`, the finite value (both zeros are `0`), and `Number.value`, zero if there is none,
* `Number.toInt?`, the value if it is an integer,
* `Number.truncate`, the integer part, from which the fixed-width words are cut.
-/

namespace Chip8

/-- A binary64 value, held exactly. -/
inductive Number where
  | nan
  | infinity (negative : Bool)
  | negZero
  | rat (value : Rat)
deriving DecidableEq, Repr, Inhabited

namespace Number

/-- The number with an integer value. -/
def ofInt (n : Int) : Number := .rat n

/-- The finite value of a number; `-0` has the value `0`. -/
def toRat? : Number → Option Rat
  | .nan => none
  | .infinity _ => none
  | .negZero => some 0
  | .rat q => some q

/-- The finite value of a number; one without counts as zero. -/
def value (n : Number) : Rat := n.toRat?.getD 0

/-- Whether the number is neither infinite nor undefined. -/
def isFinite (n : Number) : Bool := n.toRat?.isSome

/-- The value of a number that is an integer. -/
def toInt? (n : Number) : Option Int :=
  n.toRat?.bind fun q => if q.den = 1 then some q.num else none

/-- The greatest integer that is not above the number; one without a finite value counts as zero. -/
def floor (n : Number) : Int := n.value.floor

/-- The integer part, toward zero; a number without a finite value counts as zero. -/
def truncate (n : Number) : Int := n.value.num.tdiv n.value.den

/-- The low 32 bits of the integer part. -/
def toUInt32 (n : Number) : UInt32 := UInt32.ofInt n.truncate

/-- The low 16 bits of the integer part. -/
def toUInt16 (n : Number) : UInt16 := UInt16.ofInt n.truncate

/-- The low 8 bits of the integer part. -/
def toUInt8 (n : Number) : UInt8 := UInt8.ofInt n.truncate

/-- The number with the opposite sign. -/
def neg : Number → Number
  | .nan => .nan
  | .infinity negative => .infinity !negative
  | .negZero => .rat 0
  | .rat q => if q = 0 then .negZero else .rat (-q)

/-! ### Integers -/

@[simp] theorem toRat?_ofInt (n : Int) : (ofInt n).toRat? = some (n : Rat) := rfl

@[simp] theorem value_ofInt (n : Int) : (ofInt n).value = (n : Rat) := rfl

@[simp] theorem isFinite_ofInt (n : Int) : (ofInt n).isFinite = true := rfl

@[simp] theorem toInt?_ofInt (n : Int) : (ofInt n).toInt? = some n := by
  simp [toInt?]

@[simp] theorem floor_ofInt (n : Int) : (ofInt n).floor = n := by
  simp [floor]

@[simp] theorem truncate_ofInt (n : Int) : (ofInt n).truncate = n := by
  simp [truncate]

/-- A number that is an integer has that value. -/
theorem value_of_toInt? {n : Number} {k : Int} (h : n.toInt? = some k) : n.value = k := by
  rw [toInt?] at h
  rw [value]
  cases hfinite : n.toRat? with
  | none =>
    rw [hfinite] at h
    cases h
  | some q =>
    rw [hfinite] at h
    obtain ⟨hden, rfl⟩ := Option.ite_some_none_eq_some.1 h
    exact Rat.ext rfl hden

theorem ofInt_injective {m n : Int} (h : ofInt m = ofInt n) : m = n := by
  simpa using congrArg toInt? h

/-- The low 8 bits of an integer are the integer modulo 256, also below zero. -/
theorem toNat_byte (n : Int) : (UInt8.ofInt n).toNat = (n % 0x100).toNat := by
  rw [UInt8.ofInt, UInt8.toNat_ofNat']
  omega

end Number

end Chip8
