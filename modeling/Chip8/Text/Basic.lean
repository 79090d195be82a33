/-!
# Letter case and padding

Texts are lists of characters wherever their letters matter.  Here are their lower and upper case
and their padding to a width.
-/

namespace Chip8.Text

/-- The text in lower case.  Only the letters A to Z change: no other character has a lower case
that a numeral, a flag or an error mode contains on its own. -/
def lower (cs : List Char) : List Char := cs.map Char.toLower

/-- The text in upper case; again only the letters a to z change. -/
def upper (cs : List Char) : List Char := cs.map Char.toUpper

/-- The text, filled up on the left with zeros to a width. -/
def padZeros (width : Nat) (cs : List Char) : List Char :=
  List.replicate (width - cs.length) '0' ++ cs

/-! ### Laws -/

theorem length_padZeros (width : Nat) (cs : List Char) :
    (padZeros width cs).length = max width cs.length := by
  simp [padZeros]; omega

/-- Padding adds nothing to a text that is wide enough. -/
theorem padZeros_of_le {width : Nat} {cs : List Char} (h : width ≤ cs.length) :
    padZeros width cs = cs := by
  simp [padZeros, Nat.sub_eq_zero_of_le h]

end Chip8.Text
