/-!
# Blanks

The characters that are trimmed from the ends of a numeral: the white-space characters of Unicode
(without U+0085), the line and paragraph separators and the byte order mark.
-/

namespace Chip8.Text

/-- The code points of the blanks, as inclusive ranges. -/
def blankRanges : List (Nat × Nat) :=
  [(0x09, 0x0D), (0x20, 0x20), (0xA0, 0xA0), (0x1680, 0x1680), (0x2000, 0x200A),
    (0x2028, 0x2029), (0x202F, 0x202F), (0x205F, 0x205F), (0x3000, 0x3000), (0xFEFF, 0xFEFF)]

/-- Whether a character is trimmed from the ends of a numeral. -/
def isBlank (c : Char) : Bool :=
  blankRanges.any fun (first, last) => first ≤ c.toNat && c.toNat ≤ last

/-- The text without the blanks at both ends. -/
def trim (cs : List Char) : List Char :=
  ((cs.dropWhile isBlank).reverse.dropWhile isBlank).reverse

/-! ### Laws -/

/-- The blanks of ASCII are blanks here. -/
theorem isBlank_of_isWhitespace (c : Char) (h : c.isWhitespace) : isBlank c := by
  simp only [Char.isWhitespace, Bool.or_eq_true, decide_eq_true_eq] at h
  rcases h with ((h | h) | h) | h <;> subst h <;> decide

/-- A text that neither begins nor ends with a blank is left as it is. -/
theorem trim_eq_self {cs : List Char} (hfirst : ∀ c ∈ cs.head?, isBlank c = false)
    (hlast : ∀ c ∈ cs.getLast?, isBlank c = false) : trim cs = cs := by
  have hdrop : ∀ ds : List Char, (∀ c ∈ ds.head?, isBlank c = false) →
      ds.dropWhile isBlank = ds := by
    intro ds h
    cases ds with
    | nil => rfl
    | cons d ds => simp [h d (by simp)]
  unfold trim
  rw [hdrop cs hfirst, hdrop cs.reverse (by simpa using hlast), List.reverse_reverse]

/-- Blanks around a text that has none itself are trimmed, and nothing else is. -/
theorem trim_append {before cs after : List Char} (hbefore : ∀ c ∈ before, isBlank c = true)
    (hcs : ∀ c ∈ cs, isBlank c = false) (hafter : ∀ c ∈ after, isBlank c = true) :
    trim (before ++ cs ++ after) = cs := by
  have hdrop (blanks ds : List Char) (h : ∀ c ∈ blanks, isBlank c = true) :
      (blanks ++ ds).dropWhile isBlank = ds.dropWhile isBlank :=
    List.dropWhile_append_of_pos h
  rw [trim, List.append_assoc, hdrop before _ hbefore]
  cases cs with
  | nil =>
    have hnil : after.dropWhile isBlank = [] := by simpa using hdrop after [] hafter
    rw [List.nil_append, hnil]
    rfl
  | cons c cs =>
    have hc := hcs c List.mem_cons_self
    have hfirst : (c :: cs ++ after).dropWhile isBlank = c :: cs ++ after := by simp [hc]
    rw [hfirst, List.reverse_append, hdrop _ _ (by simpa using hafter)]
    calc ((c :: cs).reverse.dropWhile isBlank).reverse
        = trim (c :: cs) := by simp [trim, hc]
      _ = c :: cs := trim_eq_self (fun d hd => hcs d (List.mem_of_mem_head? hd))
          fun d hd => hcs d (List.mem_of_mem_getLast? hd)

end Chip8.Text
