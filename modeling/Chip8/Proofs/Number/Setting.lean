import Chip8.Proofs.Number.Numeral

/-!
# Settings that are integers

A host may write a natural number in decimal, or in base sixteen after `0x`, `0X` or `$`, with zeros
in front, letters in either case and blanks around it (`Numeral.Spelling`).  `Numeral.setting?`
reads all these as that number, as long as binary64 numbers count exactly.  Whatever it reads is
finite, and it refuses the texts that are no numeral at all (`Numeral.Malformed`).  Both are in
`setting?_spelling`.
-/

namespace Chip8

/-- The text consists of blanks. -/
def Text.Blank (cs : List Char) : Prop := ∀ c ∈ cs, Text.isBlank c = true

instance (cs : List Char) : Decidable (Text.Blank cs) := List.decidableBAll _ cs

namespace Numeral

/-! ### Spellings -/

/-- The marks of base sixteen. -/
def hexMarks : List (List Char) := [['0', 'x'], ['0', 'X'], ['$']]

/-- The ways to write a natural number, without blanks around it. -/
inductive Spelling (n : Nat) : List Char → Prop
  /-- In decimal, filled up with zeros to some width. -/
  | decimal (width : Nat) : Spelling n (Text.padZeros width (Nat.toDigits 10 n))
  /-- In base sixteen after a mark, with letters of either case. -/
  | hex {mark digits : List Char} (hmark : mark ∈ hexMarks)
      (hdigits : Text.lower digits = Nat.toDigits 16 n) (width : Nat) :
      Spelling n (mark ++ Text.padZeros width digits)

/-- The texts, without blanks around them, that are no numeral at all. -/
inductive Malformed : List Char → Prop
  | empty : Malformed []
  /-- There is a blank in it. -/
  | blank {c : Char} {cs : List Char} (hc : c ∈ cs) (hblank : Text.isBlank c = true) : Malformed cs
  /-- There is a `$` that is not its first character. -/
  | dollar {c : Char} {cs : List Char} (h : '$' ∈ cs) : Malformed (c :: cs)
  /-- There is a sign before the mark of base sixteen. -/
  | signedMark {sign : Char} {mark : List Char} (hsign : sign = '-' ∨ sign = '+')
      (hmark : mark ∈ hexMarks) (cs : List Char) : Malformed (sign :: (mark ++ cs))
  /-- There is a sign after the mark of base sixteen. -/
  | signedDigits {sign : Char} {mark : List Char} (hsign : sign = '-' ∨ sign = '+')
      (hmark : mark ∈ hexMarks) (cs : List Char) : Malformed (mark ++ sign :: cs)

/-! ### Lower case -/

theorem lower_eq_self {cs : List Char} (h : ∀ c ∈ cs, isDigit 10 c = true) :
    Text.lower cs = cs := by
  have hsame : ∀ c ∈ cs, c.toLower = c := fun c hc =>
    forall_digit 10 (P := fun c => c.toLower = c) (by decide +kernel) (h c hc)
  exact (List.map_congr_left hsame).trans (List.map_id' cs)

theorem lower_padZeros (width : Nat) (cs : List Char) :
    Text.lower (Text.padZeros width cs) = Text.padZeros width (Text.lower cs) := by
  simp [Text.lower, Text.padZeros]

theorem plain_of_lower {cs : List Char} (h : ∀ c ∈ Text.lower cs, Plain c) :
    ∀ c ∈ cs, Plain c := fun c hc =>
  (plain_toLower_iff c).1 (h c.toLower (List.mem_map_of_mem hc))

/-! ### What is read -/

theorem expandDollar_eq_self {cs : List Char} (h : ∀ c ∈ cs, Plain c) : expandDollar cs = cs := by
  unfold expandDollar
  split
  · exact absurd rfl (h '$' List.mem_cons_self).2
  · rfl

theorem expandDollar_eq_nil_iff (cs : List Char) : expandDollar cs = [] ↔ cs = [] := by
  unfold expandDollar
  split <;> simp

/-- What is read is the trimmed text in lower case, with `0x` for a `$` in front. -/
theorem setting?_eq (s : String) : setting? s =
    if Text.trim s.toList = [] then none
    else (bare? (expandDollar (Text.lower (Text.trim s.toList)))).filter Number.isFinite := by
  have hempty : (expandDollar (Text.lower (Text.trim s.toList))).isEmpty = true ↔
      Text.trim s.toList = [] := by
    rw [List.isEmpty_iff, expandDollar_eq_nil_iff, Text.lower, List.map_eq_nil_iff]
  unfold setting?
  simp only [hempty]

theorem setting?_isFinite {s : String} {v : Number} (h : setting? s = some v) :
    v.isFinite = true := by
  rw [setting?_eq] at h
  split at h
  · cases h
  · exact (Option.filter_eq_some_iff.1 h).2

/-- A text that the reading of numerals refuses is no setting. -/
theorem setting?_eq_none {s : String}
    (h : bare? (expandDollar (Text.lower (Text.trim s.toList))) = none) : setting? s = none := by
  rw [setting?_eq, h]
  split <;> rfl

/-- A finite number that a text without blanks stands for is read also with blanks around it. -/
theorem setting?_surrounded {before cs after : List Char} {v : Number} (hbefore : Text.Blank before)
    (hafter : Text.Blank after) (hne : cs ≠ []) (hcs : ∀ c ∈ cs, Text.isBlank c = false)
    (hv : v.isFinite = true) (h : bare? (expandDollar (Text.lower cs)) = some v) :
    setting? (String.ofList (before ++ cs ++ after)) = some v := by
  rw [setting?_eq, String.toList_ofList, Text.trim_append hbefore hcs hafter, if_neg hne, h,
    Option.filter_some, if_pos hv]

/-! ### Spellings are read -/

theorem padZeros_ne_nil {width : Nat} {cs : List Char} (h : cs ≠ []) :
    Text.padZeros width cs ≠ [] := List.append_ne_nil_of_right_ne_nil _ h

theorem isDigit_of_mem_padded (base width n : Nat) (hone : 1 < base) (hbase : base ≤ 16) :
    ∀ c ∈ Text.padZeros width (Nat.toDigits base n), isDigit base c = true :=
  isDigit_of_mem_padZeros hone hbase width (isDigit_of_mem_toDigits hone hbase n)

theorem nearest_digitsValue_padded {base : Nat} (hone : 1 < base) (hbase : base ≤ 16)
    {n : Nat} (hn : n < 0x20000000000000) (width : Nat) :
    Number.nearest (digitsValue base (Text.padZeros width (Nat.toDigits base n)) : Nat) =
      .ofInt n := by
  rw [digitsValue_padZeros, digitsValue_toDigits hone hbase, ← Rat.intCast_natCast]
  exact Number.nearest_natCast hn

theorem setting?_decimal {n : Nat} (hn : n < 0x20000000000000) (width : Nat)
    {before after : List Char} (hbefore : Text.Blank before) (hafter : Text.Blank after) :
    setting? (String.ofList (before ++ Text.padZeros width (Nat.toDigits 10 n) ++ after)) =
      some (.ofInt n) := by
  have hdigits := isDigit_of_mem_padded 10 width n (by decide) (by decide)
  have hplain : ∀ c ∈ Text.padZeros width (Nat.toDigits 10 n), Plain c := fun c hc =>
    plain_of_isDigit (by decide) (hdigits c hc)
  have hne : Text.padZeros width (Nat.toDigits 10 n) ≠ [] := padZeros_ne_nil Nat.toDigits_ne_nil
  refine setting?_surrounded hbefore hafter hne (fun c hc => (hplain c hc).1) rfl ?_
  rw [lower_eq_self hdigits, expandDollar_eq_self hplain, bare?_of_digits hne hdigits,
    nearest_digitsValue_padded (by decide) (by decide) hn]

theorem setting?_minus {n : Nat} (hpos : 0 < n) (hn : n < 0x20000000000000) (width : Nat)
    {before after : List Char} (hbefore : Text.Blank before) (hafter : Text.Blank after) :
    setting? (String.ofList (before ++ '-' :: Text.padZeros width (Nat.toDigits 10 n) ++ after)) =
      some (.ofInt (-n)) := by
  have hdigits := isDigit_of_mem_padded 10 width n (by decide) (by decide)
  have hplain : ∀ c ∈ '-' :: Text.padZeros width (Nat.toDigits 10 n), Plain c :=
    List.forall_mem_cons.2 ⟨by decide, fun c hc => plain_of_isDigit (by decide) (hdigits c hc)⟩
  have hlower : Text.lower ('-' :: Text.padZeros width (Nat.toDigits 10 n)) =
      '-' :: Text.padZeros width (Nat.toDigits 10 n) := congrArg ('-' :: ·) (lower_eq_self hdigits)
  have hneg : (Number.ofInt n).neg = .ofInt (-n) := by
    have hne : ((n : Int) : Rat) ≠ 0 := Rat.ne_of_gt (Rat.intCast_pos.2 (by omega))
    rw [Number.ofInt, Number.neg, if_neg hne, ← Rat.intCast_neg]
    rfl
  refine setting?_surrounded hbefore hafter (List.cons_ne_nil _ _) (fun c hc => (hplain c hc).1)
    rfl ?_
  rw [hlower, expandDollar_eq_self hplain,
    bare?_minus (padZeros_ne_nil Nat.toDigits_ne_nil) hdigits,
    nearest_digitsValue_padded (by decide) (by decide) hn, hneg]

/-- All marks of base sixteen come down to `0x`. -/
theorem expandDollar_lower_mark {mark : List Char} (hmark : mark ∈ hexMarks) (cs : List Char) :
    expandDollar (Text.lower (mark ++ cs)) = '0' :: 'x' :: Text.lower cs := by
  simp only [hexMarks, List.mem_cons, List.not_mem_nil, or_false] at hmark
  rcases hmark with rfl | rfl | rfl <;> rfl

theorem isBlank_of_mem_mark {mark : List Char} (hmark : mark ∈ hexMarks) {c : Char}
    (hc : c ∈ mark) : Text.isBlank c = false := by
  have hall : hexMarks.all (·.all fun c => !Text.isBlank c) = true := by decide
  have hchars := List.all_eq_true.1 (List.all_eq_true.1 hall mark hmark) c hc
  rwa [Bool.not_eq_true'] at hchars

theorem setting?_hex {n : Nat} (hn : n < 0x20000000000000) {mark digits : List Char}
    (hmark : mark ∈ hexMarks) (hlower : Text.lower digits = Nat.toDigits 16 n) (width : Nat)
    {before after : List Char} (hbefore : Text.Blank before) (hafter : Text.Blank after) :
    setting? (String.ofList (before ++ (mark ++ Text.padZeros width digits) ++ after)) =
      some (.ofInt n) := by
  have hpadded : Text.lower (Text.padZeros width digits) =
      Text.padZeros width (Nat.toDigits 16 n) := by rw [lower_padZeros, hlower]
  have hdigits := isDigit_of_mem_padded 16 width n (by decide) (by decide)
  have hplain : ∀ c ∈ Text.padZeros width digits, Plain c := by
    refine plain_of_lower fun c hc => plain_of_isDigit (by decide) (hdigits c ?_)
    rwa [hpadded] at hc
  have hblank : ∀ c ∈ mark ++ Text.padZeros width digits, Text.isBlank c = false := by
    intro c hc
    rcases List.mem_append.1 hc with hc | hc
    · exact isBlank_of_mem_mark hmark hc
    · exact (hplain c hc).1
  have hne : mark ++ Text.padZeros width digits ≠ [] :=
    List.append_ne_nil_of_left_ne_nil (fun h => absurd (h ▸ hmark) (by decide)) _
  refine setting?_surrounded hbefore hafter hne hblank rfl ?_
  rw [expandDollar_lower_mark hmark, hpadded,
    bare?_hex (padZeros_ne_nil Nat.toDigits_ne_nil) hdigits,
    nearest_digitsValue_padded (by decide) (by decide) hn]

theorem setting?_of_spelling {n : Nat} (hn : n < 0x20000000000000) {before cs after : List Char}
    (h : Spelling n cs) (hbefore : Text.Blank before) (hafter : Text.Blank after) :
    setting? (String.ofList (before ++ cs ++ after)) = some (.ofInt n) := by
  cases h with
  | decimal width => exact setting?_decimal hn width hbefore hafter
  | hex hmark hdigits width => exact setting?_hex hn hmark hdigits width hbefore hafter

/-! ### Malformed texts are refused -/

theorem mem_expandDollar {c : Char} {cs : List Char} (hc : c ∈ cs) (hdollar : c ≠ '$') :
    c ∈ expandDollar cs := by
  unfold expandDollar
  split
  · have hc := (List.mem_cons.1 hc).resolve_left hdollar
    exact List.mem_cons_of_mem _ (List.mem_cons_of_mem _ hc)
  · exact hc

theorem mem_expandDollar_cons {c d : Char} {cs : List Char} (hc : c ∈ cs) :
    c ∈ expandDollar (d :: cs) := by
  unfold expandDollar
  split
  · next hcons =>
    obtain ⟨-, rfl⟩ := List.cons.inj hcons
    exact List.mem_cons_of_mem _ (List.mem_cons_of_mem _ hc)
  · exact List.mem_cons_of_mem _ hc

theorem bare?_eq_none_of_blank {c : Char} {cs : List Char} (hc : c ∈ cs)
    (hblank : Text.isBlank c = true) : bare? (expandDollar (Text.lower cs)) = none := by
  have hlower : Text.isBlank c.toLower = true := by rw [isBlank_toLower, hblank]
  have hdollar : c.toLower ≠ '$' := fun h => absurd (h ▸ hlower) (by decide)
  refine Option.eq_none_iff_forall_ne_some.2 fun v hv => ?_
  have hmem : c.toLower ∈ expandDollar (Text.lower cs) :=
    mem_expandDollar (List.mem_map_of_mem hc) hdollar
  rw [(plain_of_bare? hv _ hmem).1] at hlower
  cases hlower

theorem bare?_eq_none_of_dollar {c : Char} {cs : List Char} (h : '$' ∈ cs) :
    bare? (expandDollar (Text.lower (c :: cs))) = none := by
  refine Option.eq_none_iff_forall_ne_some.2 fun v hv => ?_
  have hmem : '$' ∈ expandDollar (Text.lower (c :: cs)) :=
    mem_expandDollar_cons (List.mem_map_of_mem (f := Char.toLower) h)
  exact absurd rfl (plain_of_bare? hv _ hmem).2

theorem bare?_eq_none_of_malformed {cs : List Char} (h : Malformed cs) (hne : cs ≠ []) :
    bare? (expandDollar (Text.lower cs)) = none := by
  cases h with
  | empty => exact absurd rfl hne
  | blank hc hblank => exact bare?_eq_none_of_blank hc hblank
  | dollar h => exact bare?_eq_none_of_dollar h
  | signedMark hsign hmark cs =>
    simp only [hexMarks, List.mem_cons, List.not_mem_nil, or_false] at hmark
    rcases hmark with rfl | rfl | rfl
    · rcases hsign with rfl | rfl <;> exact bare?_sign_hex (by decide) _
    · rcases hsign with rfl | rfl <;> exact bare?_sign_hex (by decide) _
    · -- A `$` after a sign stands in front no longer, so it is kept as it is.
      exact bare?_eq_none_of_dollar List.mem_cons_self
  | signedDigits hsign hmark cs =>
    rw [expandDollar_lower_mark hmark]
    rcases hsign with rfl | rfl <;> exact bare?_hex_sign (by decide) _

theorem setting?_of_malformed {s : String} (h : Malformed (Text.trim s.toList)) :
    setting? s = none := by
  by_cases hne : Text.trim s.toList = []
  · rw [setting?_eq, if_pos hne]
  · exact setting?_eq_none (bare?_eq_none_of_malformed h hne)

/-! ### The headline -/

/-- All spellings of a natural number below `2 ^ 53` are read as it, with blanks around them or
without, and so is the decimal of a positive one after a minus sign as its opposite.  Whatever is
read is finite, and malformed texts are not read at all. -/
theorem setting?_spelling :
    (∀ n < 0x20000000000000, ∀ cs, Spelling n cs →
      ∀ before after, Text.Blank before → Text.Blank after →
      setting? (String.ofList (before ++ cs ++ after)) = some (.ofInt n)) ∧
    (∀ n, 0 < n → n < 0x20000000000000 →
      ∀ width before after, Text.Blank before → Text.Blank after →
      setting? (String.ofList (before ++ '-' :: Text.padZeros width (Nat.toDigits 10 n) ++ after)) =
        some (.ofInt (-n))) ∧
    (∀ s v, setting? s = some v → v.isFinite = true) ∧
    ∀ s, Malformed (Text.trim s.toList) → setting? s = none := by
  refine ⟨?_, ?_, ?_, ?_⟩
  · intro n hn cs h before after hbefore hafter
    exact setting?_of_spelling hn h hbefore hafter
  · intro n hpos hn width before after hbefore hafter
    exact setting?_minus hpos hn width hbefore hafter
  · intro s v h
    exact setting?_isFinite h
  · intro s h
    exact setting?_of_malformed h

/-- The number 31 in base sixteen with letters of both cases, between blanks of three kinds; `-42`
with leading zeros; and three malformed texts. -/
theorem setting?_spelling_mixedCase :
    setting? " \u00A00X01F\t" = some (.ofInt 31) ∧ (Number.ofInt 31).isFinite = true ∧
      setting? "-0042 " = some (.ofInt (-42)) ∧ setting? "1 000" = none ∧
      setting? "+$2a" = none ∧ setting? "0x-2a" = none := by
  obtain ⟨hspelling, hminus, hfinite, hmalformed⟩ := setting?_spelling
  have hhex : Spelling 31 ['0', 'X', '0', '1', 'F'] :=
    .hex (show ['0', 'X'] ∈ hexMarks by decide)
      (show Text.lower ['1', 'F'] = Nat.toDigits 16 31 by decide) 3
  have hread : setting? " \u00A00X01F\t" = some (.ofInt 31) :=
    hspelling 31 (by decide) _ hhex [' ', '\u00A0'] ['\t'] (by decide) (by decide)
  refine ⟨hread, hfinite _ _ hread, ?_, ?_, ?_, ?_⟩
  · exact hminus 42 (by decide) (by decide) 4 [] [' '] (by decide) (by decide)
  · exact hmalformed _ (.blank (c := ' ') (by decide) (by decide))
  · exact hmalformed _ (.signedMark (.inr rfl) (show ['$'] ∈ hexMarks by decide) ['2', 'a'])
  · have hmark : ['0', 'x'] ∈ hexMarks := by decide
    exact hmalformed _ (.signedDigits (.inl rfl) hmark ['2', 'a'])

end Numeral

end Chip8
