import Chip8.Number.Rounding
import Chip8.Text.Basic
import Chip8.Text.Blank

/-!
# Reading numerals

`Numeral.read` gives the number that a text denotes, blanks at both ends aside: nothing at all is
zero; digits of base sixteen, eight or two follow `0x`, `0o` or `0b`; anything else is a decimal
with an optional sign, point and exponent, or `Infinity`; every other text is not a number.

`Numeral.setting?` is the reading for flags and settings, where a leading `$` also stands for base
sixteen, nothing at all is no value, and only finite numbers count.
`Numeral.hexInteger?` reads the longest run of base-sixteen digits at the front of a text.

The digits of a natural number in any base up to sixteen are read as that number
(`natural?_toDigits`).
-/

namespace Chip8.Numeral

/-- The value of a digit in a base of at most sixteen. -/
def digitValue? (base : Nat) (c : Char) : Option Nat :=
  let value? :=
    if '0' ≤ c ∧ c ≤ '9' then some (c.toNat - '0'.toNat)
    else if 'a' ≤ c ∧ c ≤ 'f' then some (c.toNat - 'a'.toNat + 10)
    else if 'A' ≤ c ∧ c ≤ 'F' then some (c.toNat - 'A'.toNat + 10)
    else none
  value?.filter (· < base)

/-- Whether a character is a digit of a base. -/
def isDigit (base : Nat) (c : Char) : Bool := (digitValue? base c).isSome

/-- The value of a run of digits; characters that are none count as zero. -/
def digitsValue (base : Nat) (cs : List Char) : Nat :=
  cs.foldl (fun n c => n * base + (digitValue? base c).getD 0) 0

/-- The value of a text that consists of digits, at least one. -/
def natural? (base : Nat) (cs : List Char) : Option Nat :=
  if cs.isEmpty || !cs.all (isDigit base) then none else some (digitsValue base cs)

/-! ### Decimals -/

/-- An integer with an optional sign. -/
def signedInteger? : List Char → Option Int
  | '-' :: cs => (natural? 10 cs).map fun n => -(n : Int)
  | '+' :: cs => (natural? 10 cs).map fun n => (n : Int)
  | cs => (natural? 10 cs).map fun n => (n : Int)

/-- The exponent that ends a decimal: nothing, or `e` and an integer. -/
def exponent? : List Char → Option Int
  | [] => some 0
  | 'e' :: cs => signedInteger? cs
  | 'E' :: cs => signedInteger? cs
  | _ => none

/-- The digits after the point, if there is a point, and the text after them. -/
def fractionDigits : List Char → List Char × List Char
  | '.' :: cs => (cs.takeWhile (isDigit 10), cs.dropWhile (isDigit 10))
  | cs => ([], cs)

/-- The number nearest to `significand * 10 ^ exponent`, where the significand has at most
`digits` digits.  A value of `10 ^ 310` or more is infinite and one below `10 ^ (-330)` is zero,
whatever its digits, so that no large power is ever formed. -/
def scaled (significand digits : Nat) (exponent : Int) : Number :=
  if significand = 0 then .rat 0
  else if 310 ≤ exponent then .infinity false
  else if exponent + digits ≤ -330 then .rat 0
  else Number.nearest (significand * (10 : Rat) ^ exponent)

/-- A decimal without sign. -/
def unsignedDecimal? (cs : List Char) : Option Number :=
  let whole := cs.takeWhile (isDigit 10)
  let (fraction, rest) := fractionDigits (cs.dropWhile (isDigit 10))
  let digits := whole ++ fraction
  if digits.isEmpty then none
  else
    (exponent? rest).map fun e =>
      scaled (digitsValue 10 digits) digits.length (e - fraction.length)

/-- A decimal without sign, or the word for infinity. -/
def magnitude? (cs : List Char) : Option Number :=
  if cs = "Infinity".toList then some (.infinity false) else unsignedDecimal? cs

/-- A decimal, or infinity, with an optional sign. -/
def decimal? : List Char → Option Number
  | '-' :: cs => (magnitude? cs).map Number.neg
  | '+' :: cs => magnitude? cs
  | cs => magnitude? cs

/-! ### Whole numerals -/

/-- The base that the letter after a leading zero announces. -/
def announcedBase? (c : Char) : Option Nat :=
  match c.toLower with
  | 'x' => some 16
  | 'o' => some 8
  | 'b' => some 2
  | _ => none

/-- A numeral without blanks around it. -/
def bare? : List Char → Option Number
  | [] => some (.rat 0)
  | '0' :: c :: cs =>
    match announcedBase? c with
    | some base => (natural? base cs).map fun n => Number.nearest n
    | none => decimal? ('0' :: c :: cs)
  | cs => decimal? cs

/-- The number that a text denotes. -/
def read (s : String) : Number := (bare? (Text.trim s.toList)).getD .nan

/-- A leading `$` announces base sixteen, as `0x` does. -/
def expandDollar : List Char → List Char
  | '$' :: cs => '0' :: 'x' :: cs
  | cs => cs

/-- The finite number that the text of a flag or setting denotes, if it denotes one. -/
def setting? (s : String) : Option Number :=
  let cleaned := expandDollar (Text.lower (Text.trim s.toList))
  if cleaned.isEmpty then none
  else (bare? cleaned).filter Number.isFinite

/-! ### The front of a text -/

/-- A text without its leading `0x`. -/
def dropHexMark : List Char → List Char
  | '0' :: 'x' :: cs => cs
  | '0' :: 'X' :: cs => cs
  | cs => cs

/-- The value of the longest run of base-sixteen digits at the front of a text, after an optional
`0x`; none if there is no digit. -/
def hexRun? (cs : List Char) : Option Int :=
  (natural? 16 ((dropHexMark cs).takeWhile (isDigit 16))).map fun n => (n : Int)

/-- The integer in base sixteen at the front of a text, with an optional sign and `0x`; what
follows its digits is ignored. -/
def hexInteger? (cs : List Char) : Option Int :=
  match Text.trim cs with
  | '-' :: rest => (hexRun? rest).map Int.neg
  | '+' :: rest => hexRun? rest
  | rest => hexRun? rest

/-! ### Numbers that were written -/

theorem digitValue?_digitChar {base d : Nat} (hd : d < base) (hbase : base ≤ 16) :
    digitValue? base (Nat.digitChar d) = some d := by
  have key : ∀ d < 16, digitValue? 16 (Nat.digitChar d) = some d := by decide
  have h := key d (by omega)
  unfold digitValue? at h ⊢
  rw [Option.filter_eq_some_iff] at h ⊢
  exact ⟨h.1, by simpa using hd⟩

theorem digitsValue_append (base : Nat) (cs ds : List Char) :
    digitsValue base (cs ++ ds) =
      ds.foldl (fun n c => n * base + (digitValue? base c).getD 0) (digitsValue base cs) := by
  simp [digitsValue]

/-- The digits of a number denote it. -/
theorem digitsValue_toDigits {base : Nat} (hone : 1 < base) (hbase : base ≤ 16) (n : Nat) :
    digitsValue base (Nat.toDigits base n) = n := by
  induction n using Nat.base_induction base hone with
  | single m hm =>
    simp [Nat.toDigits_of_lt_base hm, digitsValue, digitValue?_digitChar hm hbase]
  | digit m k hk hm ih =>
    rw [← Nat.toDigits_append_toDigits hone hm hk, digitsValue_append, ih,
      Nat.toDigits_of_lt_base hk]
    simp [digitValue?_digitChar hk hbase, Nat.mul_comm]

theorem isDigit_of_mem_toDigits {base : Nat} (hone : 1 < base) (hbase : base ≤ 16) (n : Nat) :
    ∀ c ∈ Nat.toDigits base n, isDigit base c = true := by
  induction n using Nat.base_induction base hone with
  | single m hm =>
    simp [Nat.toDigits_of_lt_base hm, isDigit, digitValue?_digitChar hm hbase]
  | digit m k hk hm ih =>
    rw [← Nat.toDigits_append_toDigits hone hm hk, Nat.toDigits_of_lt_base hk]
    intro c hc
    rw [List.mem_append, List.mem_singleton] at hc
    rcases hc with hc | rfl
    · exact ih c hc
    · simp [isDigit, digitValue?_digitChar hk hbase]

/-- The digits of a number are read as that number. -/
theorem natural?_toDigits {base : Nat} (hone : 1 < base) (hbase : base ≤ 16) (n : Nat) :
    natural? base (Nat.toDigits base n) = some n := by
  have hall : (Nat.toDigits base n).all (isDigit base) = true :=
    List.all_eq_true.2 (isDigit_of_mem_toDigits hone hbase n)
  have hne : (Nat.toDigits base n).isEmpty = false := by
    simp [Nat.toDigits_ne_nil]
  simp [natural?, hall, hne, digitsValue_toDigits hone hbase]

/-- Digits of base sixteen may be in upper or lower case. -/
theorem digitValue?_toUpper (c : Char) : digitValue? 16 c.toUpper = digitValue? 16 c := by
  by_cases hc : c.toNat < 128
  · have key : ∀ k < 128,
        digitValue? 16 (Char.ofNat k).toUpper = digitValue? 16 (Char.ofNat k) := by
      decide +kernel
    have h := key c.toNat hc
    rwa [Char.ofNat_toNat] at h
  · have hsame : c.toUpper = c := by
      refine dif_neg fun h => hc ?_
      have hle : c.val ≤ 'z'.val := h.2
      exact Nat.lt_of_le_of_lt (UInt32.le_iff_toNat_le.1 hle) (by decide)
    rw [hsame]

theorem digitsValue_upper (cs : List Char) :
    digitsValue 16 (Text.upper cs) = digitsValue 16 cs := by
  simp [digitsValue, Text.upper, List.foldl_map, digitValue?_toUpper]

/-- Leading zeros do not count. -/
theorem digitsValue_padZeros (base width : Nat) (cs : List Char) :
    digitsValue base (Text.padZeros width cs) = digitsValue base cs := by
  have hzeros (k : Nat) : digitsValue base (List.replicate k '0') = 0 := by
    induction k with
    | zero => rfl
    | succ k ih =>
      have hzero : (digitValue? base '0').getD 0 = 0 := by
        show (Option.filter (fun d => decide (d < base)) (some 0)).getD 0 = 0
        rw [Option.filter_some]
        split <;> rfl
      rw [List.replicate_succ', digitsValue_append, ih]
      simp [hzero]
  rw [Text.padZeros, digitsValue_append, hzeros]
  rfl

end Chip8.Numeral
