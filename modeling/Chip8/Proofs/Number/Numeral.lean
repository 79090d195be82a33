import Chip8.Number.Numeral
import Mathlib.Data.List.TakeWhile

/-!
# Numerals of integers

What `Numeral.bare?` makes of digits alone, of digits after a sign, and of digits after `0x`, with
any number of zeros in front (`Text.padZeros`): the nearest value to the number they denote
(`bare?_of_digits`, `bare?_minus`, `bare?_hex`).  In the other direction, a text that is read as a
number has no blank and no `$` in it (`plain_of_bare?`), and it has a sign neither before nor after
its `0x` (`bare?_sign_hex`, `bare?_hex_sign`).
-/

namespace Chip8.Numeral

/-! ### Digits -/

/-- A fact about the digits of a base is one about characters of ASCII. -/
theorem forall_digit (base : Nat) {P : Char → Prop}
    (hP : ∀ k < 128, isDigit base (Char.ofNat k) = true → P (Char.ofNat k)) {c : Char}
    (h : isDigit base c = true) : P c := by
  have hsmall : c.toNat < 128 := by
    obtain ⟨d, hd⟩ := Option.isSome_iff_exists.1 h
    unfold digitValue? at hd
    obtain ⟨hvalue, -⟩ := Option.filter_eq_some_iff.1 hd
    split at hvalue
    · next hc => exact Nat.lt_of_le_of_lt (UInt32.le_iff_toNat_le.1 hc.2) (by decide)
    · split at hvalue
      · next hc => exact Nat.lt_of_le_of_lt (UInt32.le_iff_toNat_le.1 hc.2) (by decide)
      · split at hvalue
        · next hc => exact Nat.lt_of_le_of_lt (UInt32.le_iff_toNat_le.1 hc.2) (by decide)
        · cases hvalue
  have hc := hP c.toNat hsmall
  rw [Char.ofNat_toNat] at hc
  exact hc h

/-- The digits of all bases are among those of base sixteen. -/
theorem isDigit_sixteen {base : Nat} (hbase : base ≤ 16) {c : Char} (h : isDigit base c = true) :
    isDigit 16 c = true := by
  obtain ⟨d, hd⟩ := Option.isSome_iff_exists.1 h
  unfold digitValue? at hd
  rw [Option.filter_eq_some_iff] at hd
  have hlt : d < 16 := Nat.lt_of_lt_of_le (of_decide_eq_true hd.2) hbase
  refine Option.isSome_iff_exists.2 ⟨d, ?_⟩
  unfold digitValue?
  exact Option.filter_eq_some_iff.2 ⟨hd.1, decide_eq_true hlt⟩

theorem isDigit_of_mem_padZeros {base : Nat} (hone : 1 < base) (hbase : base ≤ 16) (width : Nat)
    {cs : List Char} (h : ∀ c ∈ cs, isDigit base c = true) :
    ∀ c ∈ Text.padZeros width cs, isDigit base c = true := by
  intro c hc
  rw [Text.padZeros, List.mem_append, List.mem_replicate] at hc
  rcases hc with ⟨-, rfl⟩ | hc
  · have hzero := digitValue?_digitChar (Nat.zero_lt_of_lt hone) hbase
    exact Option.isSome_iff_exists.2 ⟨0, hzero⟩
  · exact h c hc

theorem natural?_of_digits {base : Nat} {cs : List Char} (hne : cs ≠ [])
    (hall : ∀ c ∈ cs, isDigit base c = true) : natural? base cs = some (digitsValue base cs) := by
  have hall : cs.all (isDigit base) = true := List.all_eq_true.2 hall
  simp [natural?, hne, hall]

/-! ### Decimals -/

/-- Without an exponent a significand is only rounded. -/
theorem scaled_zero (n digits : Nat) : scaled n digits 0 = Number.nearest n := by
  unfold scaled
  by_cases hn : n = 0
  · subst hn
    rfl
  · rw [if_neg hn, if_neg (by decide), if_neg (by omega), Rat.zpow_zero, Rat.mul_one]

theorem unsignedDecimal?_of_digits {cs : List Char} (hne : cs ≠ [])
    (hall : ∀ c ∈ cs, isDigit 10 c = true) :
    unsignedDecimal? cs = some (Number.nearest (digitsValue 10 cs)) := by
  have hwhole : cs.takeWhile (isDigit 10) = cs := List.takeWhile_eq_self_iff.2 hall
  have hrest : cs.dropWhile (isDigit 10) = [] := List.dropWhile_eq_nil_iff.2 hall
  unfold unsignedDecimal?
  simp only [hwhole, hrest, fractionDigits, List.append_nil, List.isEmpty_iff, hne, if_false,
    exponent?, Option.map_some, List.length_nil, Int.sub_zero, Int.natCast_zero]
  exact congrArg some (scaled_zero _ _)

theorem magnitude?_of_digits {cs : List Char} (hne : cs ≠ [])
    (hall : ∀ c ∈ cs, isDigit 10 c = true) :
    magnitude? cs = some (Number.nearest (digitsValue 10 cs)) := by
  have hword : cs ≠ "Infinity".toList := by
    rintro rfl
    exact absurd (hall 'I' (by decide)) (by decide)
  rw [magnitude?, if_neg hword, unsignedDecimal?_of_digits hne hall]

theorem decimal?_of_digits {cs : List Char} (hne : cs ≠ [])
    (hall : ∀ c ∈ cs, isDigit 10 c = true) :
    decimal? cs = some (Number.nearest (digitsValue 10 cs)) := by
  unfold decimal?
  split
  · exact absurd (hall '-' List.mem_cons_self) (by decide)
  · exact absurd (hall '+' List.mem_cons_self) (by decide)
  · exact magnitude?_of_digits hne hall

/-- Digits alone are a decimal, also if the first of them is a zero. -/
theorem bare?_of_digits {cs : List Char} (hne : cs ≠ []) (hall : ∀ c ∈ cs, isDigit 10 c = true) :
    bare? cs = some (Number.nearest (digitsValue 10 cs)) := by
  unfold bare?
  split
  · exact absurd rfl hne
  · next c cs =>
    -- What follows a leading zero is a digit, and none of the letters that announce a base.
    have hc : announcedBase? c = none := by
      refine forall_digit 10 (P := fun c => announcedBase? c = none) ?_ (hall c ?_)
      · decide +kernel
      · exact List.mem_cons_of_mem _ List.mem_cons_self
    rw [hc]
    exact decimal?_of_digits hne hall
  · exact decimal?_of_digits hne hall

/-- A minus sign before digits gives the opposite number. -/
theorem bare?_minus {cs : List Char} (hne : cs ≠ []) (hall : ∀ c ∈ cs, isDigit 10 c = true) :
    bare? ('-' :: cs) = some (Number.nearest (digitsValue 10 cs)).neg := by
  show (magnitude? cs).map Number.neg = _
  rw [magnitude?_of_digits hne hall, Option.map_some]

/-! ### Base sixteen -/

theorem bare?_mark (cs : List Char) :
    bare? ('0' :: 'x' :: cs) = (natural? 16 cs).map fun n : Nat => Number.nearest (n : Rat) := by
  cases h : natural? 16 cs <;> simp [bare?, announcedBase?, h]

/-- Digits of base sixteen stand for their number after `0x`. -/
theorem bare?_hex {cs : List Char} (hne : cs ≠ []) (hall : ∀ c ∈ cs, isDigit 16 c = true) :
    bare? ('0' :: 'x' :: cs) = some (Number.nearest (digitsValue 16 cs)) := by
  rw [bare?_mark, natural?_of_digits hne hall, Option.map_some]

/-- There is no sign after `0x`. -/
theorem bare?_hex_sign {sign : Char} (hsign : isDigit 16 sign = false) (cs : List Char) :
    bare? ('0' :: 'x' :: sign :: cs) = none := by
  rw [bare?_mark]
  simp [natural?, hsign]

theorem magnitude?_mark (cs : List Char) : magnitude? ('0' :: 'x' :: cs) = none := by
  have hword : '0' :: 'x' :: cs ≠ "Infinity".toList := by
    intro h
    exact absurd (List.cons.inj h).1 (by decide)
  rw [magnitude?, if_neg hword]
  rfl

/-- There is no sign before `0x`. -/
theorem bare?_sign_hex {sign : Char} (hsign : sign = '-' ∨ sign = '+') (cs : List Char) :
    bare? (sign :: '0' :: 'x' :: cs) = none := by
  rcases hsign with rfl | rfl
  · show (magnitude? ('0' :: 'x' :: cs)).map Number.neg = none
    rw [magnitude?_mark, Option.map_none]
  · exact magnitude?_mark cs

/-! ### The characters of a numeral -/

/-- A character that is neither a blank nor a `$`. -/
def Plain (c : Char) : Prop := Text.isBlank c = false ∧ c ≠ '$'

instance (c : Char) : Decidable (Plain c) := inferInstanceAs (Decidable (_ ∧ _))

theorem plain_of_isDigit {base : Nat} (hbase : base ≤ 16) {c : Char}
    (h : isDigit base c = true) : Plain c :=
  forall_digit 16 (by decide +kernel) (isDigit_sixteen hbase h)

theorem plain_of_natural? {base n : Nat} (hbase : base ≤ 16) {cs : List Char}
    (h : natural? base cs = some n) : ∀ c ∈ cs, Plain c := by
  unfold natural? at h
  split at h
  · cases h
  · next hdigits =>
    intro c hc
    simp only [Bool.or_eq_true, Bool.not_eq_true', not_or, Bool.not_eq_false] at hdigits
    exact plain_of_isDigit hbase (List.all_eq_true.1 hdigits.2 c hc)

theorem plain_of_signedInteger? {cs : List Char} {e : Int} (h : signedInteger? cs = some e) :
    ∀ c ∈ cs, Plain c := by
  unfold signedInteger? at h
  split at h
  all_goals
    obtain ⟨_, hn, -⟩ := Option.map_eq_some_iff.1 h
    obtain ⟨n, hn, -⟩ := Option.bind_eq_some_iff.1 hn
    have hdigits := plain_of_natural? (by decide) hn
  · exact List.forall_mem_cons.2 ⟨by decide, hdigits⟩
  · exact List.forall_mem_cons.2 ⟨by decide, hdigits⟩
  · exact hdigits

theorem plain_of_exponent? {cs : List Char} {e : Int} (h : exponent? cs = some e) :
    ∀ c ∈ cs, Plain c := by
  unfold exponent? at h
  split at h
  · exact fun c hc => absurd hc List.not_mem_nil
  · exact List.forall_mem_cons.2 ⟨by decide, plain_of_signedInteger? h⟩
  · exact List.forall_mem_cons.2 ⟨by decide, plain_of_signedInteger? h⟩
  · cases h

theorem plain_of_mem_takeWhile {cs : List Char} {c : Char}
    (h : c ∈ cs.takeWhile (isDigit 10)) : Plain c :=
  plain_of_isDigit (by decide) (List.mem_takeWhile_imp h)

/-- What stands after the whole digits is plain if what stands after the fraction is. -/
theorem plain_of_fractionDigits {cs : List Char} (h : ∀ c ∈ (fractionDigits cs).2, Plain c) :
    ∀ c ∈ cs, Plain c := by
  unfold fractionDigits at h
  split at h
  · next cs =>
    refine List.forall_mem_cons.2 ⟨by decide, fun c hc => ?_⟩
    rw [← List.takeWhile_append_dropWhile (p := isDigit 10) (l := cs), List.mem_append] at hc
    rcases hc with hc | hc
    · exact plain_of_mem_takeWhile hc
    · exact h c hc
  · exact h

theorem plain_of_unsignedDecimal? {cs : List Char} {v : Number}
    (h : unsignedDecimal? cs = some v) : ∀ c ∈ cs, Plain c := by
  unfold unsignedDecimal? at h
  simp only at h
  split at h
  · cases h
  · obtain ⟨e, he, -⟩ := Option.map_eq_some_iff.1 h
    have hrest := plain_of_fractionDigits (plain_of_exponent? he)
    intro c hc
    rw [← List.takeWhile_append_dropWhile (p := isDigit 10) (l := cs), List.mem_append] at hc
    rcases hc with hc | hc
    · exact plain_of_mem_takeWhile hc
    · exact hrest c hc

theorem plain_of_magnitude? {cs : List Char} {v : Number} (h : magnitude? cs = some v) :
    ∀ c ∈ cs, Plain c := by
  unfold magnitude? at h
  split at h
  · next hword =>
    have hall : "Infinity".toList.all (fun c => decide (Plain c)) = true := by decide
    intro c hc
    subst hword
    exact of_decide_eq_true (List.all_eq_true.1 hall c hc)
  · exact plain_of_unsignedDecimal? h

theorem plain_of_decimal? {cs : List Char} {v : Number} (h : decimal? cs = some v) :
    ∀ c ∈ cs, Plain c := by
  unfold decimal? at h
  split at h
  · obtain ⟨m, hm, -⟩ := Option.map_eq_some_iff.1 h
    exact List.forall_mem_cons.2 ⟨by decide, plain_of_magnitude? hm⟩
  · exact List.forall_mem_cons.2 ⟨by decide, plain_of_magnitude? h⟩
  · exact plain_of_magnitude? h

/-- Beyond ASCII the lower case of a character is the character itself. -/
theorem toLower_cases {P : Char → Char → Prop} (hsame : ∀ c, P c c)
    (hascii : ∀ k < 128, P (Char.ofNat k) (Char.ofNat k).toLower) (c : Char) : P c c.toLower := by
  by_cases hc : c.toNat < 128
  · have h := hascii c.toNat hc
    rwa [Char.ofNat_toNat] at h
  · have hsame' : c.toLower = c := by
      refine dif_neg fun h => hc ?_
      exact Nat.lt_of_le_of_lt (UInt32.le_iff_toNat_le.1 h.2) (by decide)
    rw [hsame']
    exact hsame c

theorem isBlank_toLower (c : Char) : Text.isBlank c.toLower = Text.isBlank c :=
  toLower_cases (P := fun c d => Text.isBlank d = Text.isBlank c) (fun _ => rfl)
    (by decide +kernel) c

theorem toLower_eq_dollar_iff (c : Char) : c.toLower = '$' ↔ c = '$' :=
  toLower_cases (P := fun c d => d = '$' ↔ c = '$') (fun _ => Iff.rfl) (by decide +kernel) c

/-- A character and its lower case are plain together. -/
theorem plain_toLower_iff (c : Char) : Plain c.toLower ↔ Plain c := by
  unfold Plain
  rw [isBlank_toLower, ne_eq, toLower_eq_dollar_iff]

theorem plain_of_announcedBase? {c : Char} {base : Nat} (h : announcedBase? c = some base) :
    Plain c ∧ base ≤ 16 := by
  rw [← plain_toLower_iff]
  unfold announcedBase? at h
  split at h
  · next hx => exact ⟨hx ▸ by decide, by cases h; decide⟩
  · next ho => exact ⟨ho ▸ by decide, by cases h; decide⟩
  · next hb => exact ⟨hb ▸ by decide, by cases h; decide⟩
  · cases h

/-- A text that is a number contains no blank and no `$`. -/
theorem plain_of_bare? {cs : List Char} {v : Number} (h : bare? cs = some v) :
    ∀ c ∈ cs, Plain c := by
  unfold bare? at h
  split at h
  · exact fun c hc => absurd hc List.not_mem_nil
  · next c cs =>
    split at h
    · next base hbase =>
      obtain ⟨hc, hle⟩ := plain_of_announcedBase? hbase
      obtain ⟨_, hn, -⟩ := Option.map_eq_some_iff.1 h
      obtain ⟨n, hn, -⟩ := Option.bind_eq_some_iff.1 hn
      refine List.forall_mem_cons.2 ⟨by decide, List.forall_mem_cons.2 ⟨hc, ?_⟩⟩
      exact plain_of_natural? hle hn
    · exact plain_of_decimal? h
  · exact plain_of_decimal? h

/-! ### Natural numbers read back -/

/-- The decimal text of a natural number is read as that number. -/
theorem read_toString {n : Nat} (h : n < 0x20000000000000) : read (toString n) = .ofInt n := by
  have hdigits : ∀ c ∈ Nat.toDigits 10 n, isDigit 10 c = true :=
    isDigit_of_mem_toDigits (by decide) (by decide) n
  have hblank : ∀ c ∈ Nat.toDigits 10 n, Text.isBlank c = false := fun c hc =>
    (plain_of_isDigit (by decide) (hdigits c hc)).1
  have htrim : Text.trim (toString n).toList = Nat.toDigits 10 n := by
    rw [Nat.toString_eq_ofList_toDigits, String.toList_ofList]
    exact Text.trim_eq_self (fun c hc => hblank c (List.mem_of_mem_head? hc))
      fun c hc => hblank c (List.mem_of_mem_getLast? hc)
  rw [read, htrim, bare?_of_digits Nat.toDigits_ne_nil hdigits,
    digitsValue_toDigits (by decide) (by decide), ← Rat.intCast_natCast, Number.nearest_natCast h]
  rfl

end Chip8.Numeral
