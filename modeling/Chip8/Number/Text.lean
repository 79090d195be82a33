import Chip8.Number.Rounding

/-!
# How numbers are written

Two forms.  `Number.decimal` writes the fewest decimal digits that read back to the same value,
positionally when the point falls within six places before or twenty-one places after the first
digit, and otherwise with an exponent.  `Number.hex` writes the exact value in base sixteen, with
all its digits.
-/

namespace Chip8.Number

/-! ### Decimal -/

/-- Decimal digits `digits` with the point after the first `point` of them. -/
structure Decimal where
  digits : List Char
  point : Int

/-- The exponent `e` of a positive rational `q` with `10 ^ (e - 1) ≤ q < 10 ^ e`. -/
def decade (q : Rat) : Int :=
  let guess : Int := ((Nat.toDigits 10 q.num.natAbs).length : Int) - (Nat.toDigits 10 q.den).length
  if q < (10 : Rat) ^ guess then guess else guess + 1

/-- The point of the grid `10 ^ e` next to `q` that reads back as `q`, if either neighbour does;
of two the nearer one, of two equally near ones the even one. -/
def gridPoint? (q : Rat) (e : Int) : Option Nat :=
  let unit : Rat := (10 : Rat) ^ e
  let below := (q / unit).floor
  let readsBack (n : Int) : Bool := nearest (n * unit) == .rat q
  match readsBack below, readsBack (below + 1) with
  | true, true => some (roundHalfEven (q / unit)).toNat
  | true, false => some below.toNat
  | false, true => some (below + 1).toNat
  | false, false => none

/-- The shortest decimal that reads back as the positive value `q`: the first grid, from coarse to
fine, with a point that does.  Seventeen digits always suffice. -/
def shortest (q : Rat) : Decimal :=
  let top := decade q
  let found := (List.range 17).findSome? fun (k : Nat) =>
    let e := top - (k + 1)
    (gridPoint? q e).map fun n => (Nat.toDigits 10 n, e)
  match found with
  | some (digits, e) =>
    ⟨(digits.reverse.dropWhile (· == '0')).reverse, digits.length + e⟩
  | none => ⟨['0'], 1⟩

/-- The text of a decimal: positional for a point in `-5 .. 21`, else with an exponent. -/
def Decimal.chars (d : Decimal) : List Char :=
  let zeros (n : Int) : List Char := List.replicate n.toNat '0'
  let count : Int := d.digits.length
  if count ≤ d.point ∧ d.point ≤ 21 then d.digits ++ zeros (d.point - count)
  else if 0 < d.point ∧ d.point ≤ 21 then
    d.digits.take d.point.toNat ++ '.' :: d.digits.drop d.point.toNat
  else if -6 < d.point ∧ d.point ≤ 0 then '0' :: '.' :: zeros (-d.point) ++ d.digits
  else
    let e := d.point - 1
    let sign := if 0 ≤ e then '+' else '-'
    let fraction := if d.digits.length ≤ 1 then [] else '.' :: d.digits.drop 1
    d.digits.take 1 ++ fraction ++ 'e' :: sign :: Nat.toDigits 10 e.natAbs

/-- The decimal text of a non-negative value.  Below `2 ^ 53` neighbouring values are at most one
apart, so an integer there needs all its digits. -/
def magnitudeChars (q : Rat) : List Char :=
  if q.den = 1 ∧ q.num.natAbs < 0x20000000000000 then Nat.toDigits 10 q.num.natAbs
  else (shortest q).chars

/-- The decimal text of a finite value. -/
def ratChars (q : Rat) : List Char :=
  if q < 0 then '-' :: magnitudeChars (-q) else magnitudeChars q

/-- The number in decimal. -/
def decimal : Number → String
  | .nan => "NaN"
  | .infinity true => "-Infinity"
  | .infinity false => "Infinity"
  | .negZero => "0"
  | .rat q => String.ofList (ratChars q)

/-! ### Base sixteen -/

/-- The digits of a fraction in `0 ≤ q < 1` in base sixteen, at most `count` of them. -/
def hexFractionChars (q : Rat) : Nat → List Char
  | 0 => []
  | count + 1 =>
    if q = 0 then []
    else
      let scaled := q * 16
      Nat.digitChar scaled.floor.toNat :: hexFractionChars (scaled - scaled.floor) count

/-- A finite value in base sixteen.  No binary64 value has more than 269 digits after the
point. -/
def hexRatChars (q : Rat) : List Char :=
  let a := q.abs
  let whole := a.floor
  let fraction := hexFractionChars (a - whole) 269
  (if q < 0 then ['-'] else []) ++ Nat.toDigits 16 whole.toNat ++
    (if fraction.isEmpty then [] else '.' :: fraction)

/-- The number in base sixteen, with digits in lower case. -/
def hex : Number → String
  | .nan => "NaN"
  | .infinity true => "-Infinity"
  | .infinity false => "Infinity"
  | .negZero => "0"
  | .rat q => String.ofList (hexRatChars q)

/-! ### Laws -/

theorem not_natCast_neg (n : Nat) : ¬ ((n : Int) : Rat) < 0 :=
  Rat.not_lt.2 (Rat.intCast_nonneg.2 (Int.natCast_nonneg n))

/-- A natural number that fits the significand is written with all its digits. -/
theorem decimal_ofInt_natCast {n : Nat} (h : n < 0x20000000000000) :
    (ofInt n).decimal.toList = Nat.toDigits 10 n := by
  show (String.ofList (ratChars ((n : Int) : Rat))).toList = _
  rw [String.toList_ofList, ratChars, if_neg (not_natCast_neg n), magnitudeChars, if_pos]
  · simp
  · simpa using h

theorem hexRatChars_natCast (n : Nat) : hexRatChars ((n : Int) : Rat) = Nat.toDigits 16 n := by
  have habs : Rat.abs ((n : Int) : Rat) = ((n : Int) : Rat) :=
    Rat.abs_of_nonneg (Rat.not_lt.1 (not_natCast_neg n))
  unfold hexRatChars
  simp only [habs, not_natCast_neg n, if_false, Rat.floor_intCast, Rat.sub_self]
  simp [hexFractionChars]

/-- A natural number is written with all its digits. -/
theorem hex_ofInt_natCast (n : Nat) : (ofInt n).hex.toList = Nat.toDigits 16 n := by
  show (String.ofList (hexRatChars ((n : Int) : Rat))).toList = _
  rw [hexRatChars_natCast, String.toList_ofList]

end Chip8.Number
