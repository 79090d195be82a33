import Chip8.Number.Basic

/-!
# Rounding to binary64

`Number.nearest q` is the binary64 value nearest to the rational `q`; of two equally near ones the
one with the even significand wins.  A finite value is `m * 2 ^ u` with `m < 2 ^ 53` and
`-1074 ≤ u ≤ 971`: `spacing` is the exponent `u` of the grid around a value, `roundHalfEven` picks
the grid point, and a grid point at or beyond `2 ^ 1024` is infinite.

`Number.add` is the sum of two numbers, rounded in this way.

A point of its own grid is its own nearest value (`nearestPositive_eq_self`); so is every natural
number below `2 ^ 53` (`nearest_natCast`, `rounded_natCast`).  Integers add up exactly as far
(`add_ofInt`).
-/

namespace Chip8.Number

/-- The integer nearest to a rational; a half goes to the even neighbour. -/
def roundHalfEven (q : Rat) : Int :=
  let below := q.floor
  let rest := q - below
  if rest < 1 / 2 then below
  else if 1 / 2 < rest then below + 1
  else if below % 2 = 0 then below
  else below + 1

/-- The exponent `e` of a positive rational `q` with `2 ^ e ≤ q < 2 ^ (e + 1)`. -/
def binade (q : Rat) : Int :=
  let guess : Int := (Nat.log2 q.num.natAbs : Int) - (Nat.log2 q.den : Int)
  if (2 : Rat) ^ guess ≤ q then guess else guess - 1

/-- The exponent `u` such that binary64 values around a positive `q` are multiples of `2 ^ u`. -/
def spacing (q : Rat) : Int := max (binade q - 52) (-1074)

/-- The nearest value to a positive rational. -/
def nearestPositive (q : Rat) : Number :=
  let u := spacing q
  let value := (roundHalfEven (q / (2 : Rat) ^ u) : Rat) * (2 : Rat) ^ u
  if (2 : Rat) ^ (1024 : Int) ≤ value then .infinity false else .rat value

/-- The binary64 value nearest to a rational; a negative one too small for any other becomes
`-0`. -/
def nearest (q : Rat) : Number :=
  if q = 0 then .rat 0
  else if 0 < q then nearestPositive q
  else (nearestPositive (-q)).neg

/-- The nearest binary64 value as a rational; zero where that value is infinite. -/
def rounded (q : Rat) : Rat := (nearest q).value

/-- The lesser of two rationals. -/
def lesser (p q : Rat) : Rat := if p ≤ q then p else q

/-- The greater of two rationals. -/
def greater (p q : Rat) : Rat := if p ≤ q then q else p

/-- The sum of two finite values other than `-0`: the nearest value to their exact sum, which is
the sum itself for integers below `2 ^ 53`. -/
def addRat (p q : Rat) : Number :=
  if p.den = 1 ∧ q.den = 1 ∧ (p.num + q.num).natAbs < 0x20000000000000 then ofInt (p.num + q.num)
  else nearest (p + q)

/-- The sum of two numbers in binary64 arithmetic. -/
def add : Number → Number → Number
  | .nan, _ => .nan
  | _, .nan => .nan
  | .infinity a, .infinity b => if a = b then .infinity a else .nan
  | .infinity a, _ => .infinity a
  | _, .infinity b => .infinity b
  | .negZero, b => b
  | a, .negZero => a
  | .rat p, .rat q => addRat p q

/-! ### Laws -/

/-- Integers below `2 ^ 53` add up exactly. -/
theorem add_ofInt {a b : Int} (h : (a + b).natAbs < 0x20000000000000) :
    add (ofInt a) (ofInt b) = ofInt (a + b) := by
  show addRat a b = ofInt (a + b)
  exact if_pos ⟨rfl, rfl, h⟩

theorem roundHalfEven_intCast (n : Int) : roundHalfEven (n : Rat) = n := by
  have half_pos : (0 : Rat) < 1 / 2 := by rw [Rat.lt_iff]; decide +kernel
  unfold roundHalfEven
  simp only [Rat.floor_intCast, Rat.sub_self]
  rw [if_pos half_pos]

/-- A point of its own grid is its own nearest value. -/
theorem nearestPositive_eq_self {q : Rat} {m : Int} (hq : q = m * (2 : Rat) ^ spacing q)
    (hlt : q < (2 : Rat) ^ (1024 : Int)) : nearestPositive q = .rat q := by
  have hunit : (2 : Rat) ^ spacing q ≠ 0 := Rat.ne_of_gt (Rat.zpow_pos (by decide +kernel))
  have hdiv : q / (2 : Rat) ^ spacing q = m := by
    conv => lhs; lhs; rw [hq]
    rw [Rat.div_def, Rat.mul_assoc, Rat.mul_inv_cancel _ hunit, Rat.mul_one]
  have hvalue : (roundHalfEven (q / (2 : Rat) ^ spacing q) : Rat) * (2 : Rat) ^ spacing q = q := by
    rw [hdiv, roundHalfEven_intCast, ← hq]
  unfold nearestPositive
  simp only [hvalue]
  rw [if_neg (Rat.not_le.2 hlt)]

theorem log2_lt_of_lt {n : Nat} (h : n < 0x20000000000000) : Nat.log2 n < 53 := by
  by_cases hn : n = 0
  · subst hn; decide
  · exact (Nat.log2_lt hn).2 h

theorem binade_natCast {n : Nat} (hn : n ≠ 0) : binade ((n : Int) : Rat) = (Nat.log2 n : Nat) := by
  have hle : (2 : Rat) ^ ((Nat.log2 n : Nat) : Int) ≤ ((n : Int) : Rat) := by
    have hcast : (((2 ^ Nat.log2 n : Nat) : Int) : Rat) ≤ ((n : Int) : Rat) :=
      Rat.intCast_le_intCast.2 (by exact_mod_cast Nat.log2_self_le hn)
    rw [Rat.zpow_natCast]
    simpa using hcast
  have hguess : (Nat.log2 ((n : Int) : Rat).num.natAbs : Int) -
      (Nat.log2 ((n : Int) : Rat).den : Int) = (Nat.log2 n : Nat) := by
    simp [show Nat.log2 1 = 0 by decide]
  unfold binade
  simp only [hguess]
  rw [if_pos hle]

theorem natCast_lt_two_zpow {n l : Nat} (h : n < 0x20000000000000) (hl : 53 ≤ l) :
    ((n : Int) : Rat) < (2 : Rat) ^ (l : Int) := by
  have hbound : n < 2 ^ 53 := h
  have hlt : n < 2 ^ l := Nat.lt_of_lt_of_le hbound (Nat.pow_le_pow_right (by decide) hl)
  rw [Rat.zpow_natCast, show (2 : Rat) = ((2 : Int) : Rat) from rfl, ← Rat.intCast_pow,
    Rat.intCast_lt_intCast]
  exact_mod_cast hlt

/-- A natural number that fits the significand is its own nearest value. -/
theorem nearest_natCast {n : Nat} (h : n < 0x20000000000000) :
    nearest ((n : Int) : Rat) = ofInt n := by
  by_cases hn : n = 0
  · subst hn; rfl
  have hpos : (0 : Rat) < ((n : Int) : Rat) := Rat.intCast_pos.2 (by omega)
  have hspacing : spacing ((n : Int) : Rat) = -((52 - Nat.log2 n : Nat) : Int) := by
    have := log2_lt_of_lt h
    unfold spacing
    rw [binade_natCast hn]
    omega
  have hpow : (2 : Rat) ^ (52 - Nat.log2 n) ≠ 0 := Rat.ne_of_gt (Rat.pow_pos (by decide +kernel))
  unfold nearest
  rw [if_neg (Rat.ne_of_gt hpos), if_pos hpos]
  refine nearestPositive_eq_self (m := (n : Int) * 2 ^ (52 - Nat.log2 n)) ?_
    (natCast_lt_two_zpow h (by decide : 53 ≤ 1024))
  rw [hspacing, Rat.zpow_neg, Rat.zpow_natCast, Rat.intCast_mul, Rat.intCast_pow, Rat.mul_assoc,
    show ((2 : Int) : Rat) = 2 from rfl, Rat.mul_inv_cancel _ hpow, Rat.mul_one]

theorem rounded_natCast {n : Nat} (h : n < 0x20000000000000) : rounded (n : Rat) = n := by
  rw [← Rat.intCast_natCast, rounded, nearest_natCast h, value_ofInt]

theorem lesser_natCast (m n : Nat) : lesser m n = (min m n : Nat) := by
  unfold lesser
  by_cases h : m ≤ n
  · rw [if_pos (Rat.natCast_le_natCast.2 h), Nat.min_eq_left h]
  · rw [if_neg (mt Rat.natCast_le_natCast.1 h), Nat.min_eq_right (Nat.le_of_not_le h)]

theorem greater_zero_natCast (n : Nat) : greater 0 n = n := if_pos Rat.natCast_nonneg

end Chip8.Number
