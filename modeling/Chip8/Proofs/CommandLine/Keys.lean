import Chip8.CommandLine.Screenshot
import Chip8.Proofs.Number.Setting
import Mathlib.Data.List.Forall2

/-!
# Lists of keys

A list of keys has commas between its items (`listed`).  An item that starts with the number of a
key stands for that key (`keyOf?`), and any other for none, so that a list is read item by item
(`keyNumbers_listed`).  All that is read are keys of the keypad, and holding them is never a fault
(`exists_hold`).  Keys that are written with a digit each are all read, in their order
(`WritesKey`), and items that stand for no key change nothing, wherever they are put (`Sprinkled`).
The headline is `keyNumbers_exact`.
-/

namespace Chip8

namespace Numeral

/-! ### Integers at the front of a text -/

/-- What may stand before the digits of an integer in base sixteen: nothing, or the mark of the base
in either case. -/
inductive LeadingMark : List Char → Prop
  | none : LeadingMark []
  | lower : LeadingMark ['0', 'x']
  | upper : LeadingMark ['0', 'X']

section

variable {mark digits : List Char}

/-- What holds of digits and of the letter of a mark holds of digits after a mark. -/
theorem LeadingMark.forall_mem {P : Char → Prop} (hmark : LeadingMark mark) (hx : P 'x')
    (hX : P 'X') (hP : ∀ k < 128, isDigit 16 (Char.ofNat k) = true → P (Char.ofNat k))
    (hdigits : ∀ c ∈ digits, isDigit 16 c = true) : ∀ c ∈ mark ++ digits, P c := by
  have hdigit {c : Char} (h : isDigit 16 c = true) : P c := forall_digit 16 hP h
  have hzero : P '0' := hdigit (by decide)
  have hall : ∀ c ∈ digits, P c := fun c hc => hdigit (hdigits c hc)
  cases hmark with
  | none => exact hall
  | lower => exact List.forall_mem_cons.2 ⟨hzero, List.forall_mem_cons.2 ⟨hx, hall⟩⟩
  | upper => exact List.forall_mem_cons.2 ⟨hzero, List.forall_mem_cons.2 ⟨hX, hall⟩⟩

theorem dropHexMark_of_digits (h : ∀ c ∈ digits, isDigit 16 c = true) :
    dropHexMark digits = digits := by
  -- A zero in front is the first digit, as no digit is the letter of a mark.
  unfold dropHexMark
  split
  · exact absurd (h 'x' (by simp)) (by decide)
  · exact absurd (h 'X' (by simp)) (by decide)
  · rfl

theorem hexRun?_of_digits (hmark : LeadingMark mark) (hne : digits ≠ [])
    (hdigits : ∀ c ∈ digits, isDigit 16 c = true) :
    hexRun? (mark ++ digits) = some (digitsValue 16 digits : Int) := by
  have hdrop : dropHexMark (mark ++ digits) = digits := by
    cases hmark with
    | none => exact dropHexMark_of_digits hdigits
    | lower => rfl
    | upper => rfl
  have htake : digits.takeWhile (isDigit 16) = digits := List.takeWhile_eq_self_iff.2 hdigits
  rw [hexRun?, hdrop, htake, natural?_of_digits hne hdigits]
  rfl

/-- Digits are read as their number, after a mark or without one, and with blanks around them. -/
theorem hexInteger?_of_digits {before after : List Char} (hbefore : Text.Blank before)
    (hmark : LeadingMark mark) (hne : digits ≠ [])
    (hdigits : ∀ c ∈ digits, isDigit 16 c = true) (hafter : Text.Blank after) :
    hexInteger? (before ++ (mark ++ digits) ++ after) = some (digitsValue 16 digits : Int) := by
  have hplain : ∀ c ∈ mark ++ digits, Text.isBlank c = false ∧ c ≠ '-' ∧ c ≠ '+' :=
    hmark.forall_mem (by decide) (by decide) (by decide +kernel) hdigits
  have htrim : Text.trim (before ++ (mark ++ digits) ++ after) = mark ++ digits :=
    Text.trim_append hbefore (fun c hc => (hplain c hc).1) hafter
  unfold hexInteger?
  rw [htrim]
  split
  · next hsign => exact absurd rfl (hplain '-' (hsign ▸ List.mem_cons_self)).2.1
  · next hsign => exact absurd rfl (hplain '+' (hsign ▸ List.mem_cons_self)).2.2
  · exact hexRun?_of_digits hmark hne hdigits

end

end Numeral

namespace CommandLine.Screenshot

/-! ### One item -/

/-- The key that an item of a list stands for. -/
def keyOf? (item : List Char) : Option Int :=
  (Numeral.hexInteger? item).filter fun k => 0 ≤ k ∧ k ≤ 15

/-- A digit of base sixteen that denotes a key, in either case. -/
def DigitOf (key : Fin 16) (digit : Char) : Prop :=
  digit = Nat.digitChar key ∨ digit = (Nat.digitChar key).toUpper

/-- The ways to write a key as an item: its digit, after a mark of base sixteen or without one, and
with blanks around it. -/
inductive WritesKey (key : Fin 16) : List Char → Prop
  | intro {before mark after : List Char} {digit : Char} (hbefore : Text.Blank before)
      (hmark : Numeral.LeadingMark mark) (hdigit : DigitOf key digit) (hafter : Text.Blank after) :
      WritesKey key (before ++ (mark ++ [digit]) ++ after)

/-- The item does not start with an integer, or with one that is no key. -/
def NoKey (item : List Char) : Prop := ∀ n ∈ Numeral.hexInteger? item, n < 0 ∨ 15 < n

instance (item : List Char) : Decidable (NoKey item) :=
  inferInstanceAs (Decidable (∀ n ∈ Numeral.hexInteger? item, n < 0 ∨ 15 < n))

theorem keyOf?_range {item : List Char} {k : Int} (h : keyOf? item = some k) : 0 ≤ k ∧ k ≤ 15 :=
  of_decide_eq_true (Option.filter_eq_some_iff.1 h).2

theorem keyOf?_of_noKey {item : List Char} (h : NoKey item) : keyOf? item = none := by
  refine Option.filter_eq_none_iff.2 fun n hn hkey => ?_
  have hrange := of_decide_eq_true hkey
  have hnone := h n hn
  omega

section

variable {key : Fin 16} {item : List Char}

theorem DigitOf.digitValue?_eq {digit : Char} (h : DigitOf key digit) :
    Numeral.digitValue? 16 digit = some key.val := by
  have hlower := Numeral.digitValue?_digitChar key.isLt (Nat.le_refl 16)
  rcases h with rfl | rfl
  · exact hlower
  · rw [Numeral.digitValue?_toUpper, hlower]

theorem DigitOf.isDigit {digit : Char} (h : DigitOf key digit) :
    ∀ c ∈ [digit], Numeral.isDigit 16 c = true := by
  simp [Numeral.isDigit, h.digitValue?_eq]

theorem keyOf?_of_writesKey (h : WritesKey key item) : keyOf? item = some (key.val : Int) := by
  obtain @⟨before, mark, after, digit, hbefore, hmark, hdigit, hafter⟩ := h
  have hread := Numeral.hexInteger?_of_digits hbefore hmark (List.cons_ne_nil digit [])
    hdigit.isDigit hafter
  have hkey : Numeral.digitsValue 16 [digit] = key.val := by
    simp [Numeral.digitsValue, hdigit.digitValue?_eq]
  have hrange : 0 ≤ (key.val : Int) ∧ (key.val : Int) ≤ 15 := by omega
  rw [keyOf?, hread, hkey, Option.filter_some, if_pos (decide_eq_true hrange)]

theorem comma_notMem_of_writesKey (h : WritesKey key item) : ',' ∉ item := by
  obtain @⟨before, mark, after, digit, hbefore, hmark, hdigit, hafter⟩ := h
  have hblank {cs : List Char} (hcs : Text.Blank cs) : ',' ∉ cs := fun hc =>
    absurd (hcs ',' hc) (by decide)
  have hmarked : ∀ c ∈ mark ++ [digit], c ≠ ',' :=
    hmark.forall_mem (by decide) (by decide) (by decide +kernel) hdigit.isDigit
  rw [List.mem_append, List.mem_append]
  rintro ((hc | hc) | hc)
  · exact hblank hbefore hc
  · exact hmarked ',' hc rfl
  · exact hblank hafter hc

end

/-! ### The items of a list -/

/-- The text with the items, and commas between them. -/
def listed (items : List (List Char)) : String := String.ofList ([','].intercalate items)

/-- The second items are the first with items among them that stand for no key. -/
inductive Sprinkled : List (List Char) → List (List Char) → Prop
  | nil : Sprinkled [] []
  | keep {item : List Char} {items items' : List (List Char)} (hitem : ',' ∉ item)
      (h : Sprinkled items items') : Sprinkled (item :: items) (item :: items')
  | insert {item : List Char} {items items' : List (List Char)} (hitem : ',' ∉ item)
      (hkey : NoKey item) (h : Sprinkled items items') : Sprinkled items (item :: items')

theorem keyNumbers_eq (raw : String) :
    keyNumbers raw = (raw.toList.splitOn ',').filterMap keyOf? := by
  unfold keyNumbers
  split
  · next hempty =>
    -- An empty text has one item, which is empty and stands for no key.
    rw [String.isEmpty_iff.1 hempty]
    rfl
  · exact List.filter_filterMap

/-- A list is read item by item. -/
theorem keyNumbers_listed {items : List (List Char)} (h : ∀ item ∈ items, ',' ∉ item) :
    keyNumbers (listed items) = items.filterMap keyOf? := by
  rw [keyNumbers_eq, listed, String.toList_ofList]
  by_cases hne : items = []
  · subst hne
    rfl
  · rw [List.splitOn_intercalate ',' h hne]

section

variable {keys : List (Fin 16)} {items : List (List Char)}

theorem filterMap_keyOf?_of_writesKey (h : List.Forall₂ WritesKey keys items) :
    items.filterMap keyOf? = keys.map fun key => (key.val : Int) := by
  induction h with
  | nil => rfl
  | cons hitem _ ih =>
    rw [List.filterMap_cons_some (keyOf?_of_writesKey hitem), ih, List.map_cons]

theorem comma_notMem_of_forall₂ (h : List.Forall₂ WritesKey keys items) :
    ∀ item ∈ items, ',' ∉ item := by
  induction h with
  | nil => simp
  | cons hitem _ ih => exact List.forall_mem_cons.2 ⟨comma_notMem_of_writesKey hitem, ih⟩

end

namespace Sprinkled

variable {items items' : List (List Char)}

theorem filterMap_keyOf?_eq (h : Sprinkled items items') :
    items'.filterMap keyOf? = items.filterMap keyOf? := by
  induction h with
  | nil => rfl
  | keep _ _ ih => rw [List.filterMap_cons, List.filterMap_cons, ih]
  | insert _ hkey _ ih => rw [List.filterMap_cons_none (keyOf?_of_noKey hkey), ih]

theorem comma_notMem (h : Sprinkled items items') :
    (∀ item ∈ items, ',' ∉ item) ∧ ∀ item ∈ items', ',' ∉ item := by
  induction h with
  | nil => simp
  | keep hitem _ ih =>
    exact ⟨List.forall_mem_cons.2 ⟨hitem, ih.1⟩, List.forall_mem_cons.2 ⟨hitem, ih.2⟩⟩
  | insert hitem _ _ ih => exact ⟨ih.1, List.forall_mem_cons.2 ⟨hitem, ih.2⟩⟩

end Sprinkled

/-! ### Keys held -/

theorem keyNumbers_range {raw : String} {k : Int} (h : k ∈ keyNumbers raw) : 0 ≤ k ∧ k ≤ 15 := by
  rw [keyNumbers_eq, List.mem_filterMap] at h
  obtain ⟨item, -, hkey⟩ := h
  exact keyOf?_range hkey

/-- Keys are held one after the other without a fault, and then exactly those that were held before
or are among them are held. -/
theorem exists_hold (p : Keypad) {keys : List Int} (h : ∀ k ∈ keys, 0 ≤ k ∧ k ≤ 15) :
    ∃ p', hold p keys = .ok p' ∧
      ∀ key : Fin 16, p'.isHeld key = true ↔ p.isHeld key = true ∨ (key.val : Int) ∈ keys := by
  -- The keypad that the first key leaves is the one on which the others are held.
  induction keys generalizing p with
  | nil => exact ⟨p, rfl, by simp⟩
  | cons k keys ih =>
    obtain ⟨⟨hk, hk'⟩, hkeys⟩ := List.forall_mem_cons.1 h
    obtain ⟨key, rfl⟩ : ∃ key : Fin 16, k = (key.val : Int) :=
      ⟨⟨k.toNat, by omega⟩, (Int.toNat_of_nonneg hk).symm⟩
    have hset : p.setKey (.ofInt key.val) true = .ok (p.set key true) := by
      rw [Keypad.setKey, (Keypad.keyAt_eq_ok_iff _ key).2 (Number.toInt?_ofInt _)]
      rfl
    obtain ⟨p', hp', hheld⟩ := ih (p.set key true) hkeys
    refine ⟨p', ?_, fun j => ?_⟩
    · rw [hold, List.foldlM_cons, hset]
      exact hp'
    · rw [hheld, Keypad.isHeld_set, List.mem_cons]
      by_cases hj : key = j
      · simp [hj]
      · have hne : (j.val : Int) ≠ key.val := fun h => hj (Fin.ext (Int.ofNat.inj h.symm))
        simp [hj, hne]

/-! ### The headline -/

/-- Whatever text is read as a list of keys, only keys are read, and they are held without a fault,
with no other key touched.  Keys that are written one digit each are read as they are, in their
order.  Items that stand for no key may be put anywhere in a list. -/
theorem keyNumbers_exact :
    (∀ raw, (∀ k ∈ keyNumbers raw, 0 ≤ k ∧ k ≤ 15) ∧
      ∀ p : Keypad, ∃ p', hold p (keyNumbers raw) = .ok p' ∧ ∀ key : Fin 16,
        p'.isHeld key = true ↔ p.isHeld key = true ∨ (key.val : Int) ∈ keyNumbers raw) ∧
    (∀ keys items, List.Forall₂ WritesKey keys items →
      keyNumbers (listed items) = keys.map fun key => (key.val : Int)) ∧
    ∀ items items', Sprinkled items items' →
      keyNumbers (listed items') = keyNumbers (listed items) := by
  refine ⟨fun raw => ⟨fun k => keyNumbers_range, fun p => ?_⟩, ?_, ?_⟩
  · exact exists_hold p fun k => keyNumbers_range
  · intro keys items h
    rw [keyNumbers_listed (comma_notMem_of_forall₂ h), filterMap_keyOf?_of_writesKey h]
  · intro items items' h
    obtain ⟨hitems, hitems'⟩ := h.comma_notMem
    rw [keyNumbers_listed hitems, keyNumbers_listed hitems', h.filterMap_keyOf?_eq]

/-- Three keys with and without a mark, in both cases and with blanks; then the same with five items
among them that are a sign alone, below zero, empty, above fifteen and empty again. -/
theorem keyNumbers_exact_sprinkled :
    keyNumbers " 0x5,A\t,0Xf" = [5, 10, 15] ∧ keyNumbers "+, 0x5,-1,A\t,,10,0Xf," = [5, 10, 15] ∧
      ∃ p', hold .released (keyNumbers "+, 0x5,-1,A\t,,10,0Xf,") = .ok p' ∧
        p'.isHeld 10 = true := by
  obtain ⟨hread, hwritten, hsprinkled⟩ := keyNumbers_exact
  have hfive : WritesKey 5 [' ', '0', 'x', '5'] :=
    .intro (show Text.Blank [' '] by decide) .lower (.inl rfl) (show Text.Blank [] by decide)
  have hten : WritesKey 10 ['A', '\t'] :=
    .intro (show Text.Blank [] by decide) .none (.inr rfl) (show Text.Blank ['\t'] by decide)
  have hfifteen : WritesKey 15 ['0', 'X', 'f'] :=
    .intro (show Text.Blank [] by decide) .upper (.inl rfl) (show Text.Blank [] by decide)
  have hitems : Sprinkled [[' ', '0', 'x', '5'], ['A', '\t'], ['0', 'X', 'f']]
      [['+'], [' ', '0', 'x', '5'], ['-', '1'], ['A', '\t'], [], ['1', '0'], ['0', 'X', 'f'], []] :=
    .insert (by decide) (by decide) <| .keep (by decide) <| .insert (by decide) (by decide) <|
      .keep (by decide) <| .insert (by decide) (by decide) <| .insert (by decide) (by decide) <|
      .keep (by decide) <| .insert (by decide) (by decide) .nil
  have hplain : keyNumbers " 0x5,A\t,0Xf" = [5, 10, 15] :=
    hwritten _ _ (.cons hfive (.cons hten (.cons hfifteen .nil)))
  have hmixed : keyNumbers "+, 0x5,-1,A\t,,10,0Xf," = [5, 10, 15] :=
    (hsprinkled _ _ hitems).trans hplain
  obtain ⟨p', hp', hheld⟩ := (hread "+, 0x5,-1,A\t,,10,0Xf,").2 .released
  refine ⟨hplain, hmixed, p', hp', (hheld 10).2 (.inr ?_)⟩
  rw [hmixed]
  decide

end CommandLine.Screenshot

end Chip8
