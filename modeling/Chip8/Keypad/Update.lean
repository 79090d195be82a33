import Chip8.Keypad.Basic
import Chip8.Number.Numeral

/-!
# Updates of several keys

An update is a list of key names with the state each is to get, or none to leave it.  A name that
is repeated keeps its first place and takes its last state.  The names that are natural numbers
written plainly come first, in ascending order, and then the others in theirs
(`KeyUpdate.ordered`).  Every name is read as a number, and the first that is no key ends the
update; what came before it stays.
-/

namespace Chip8

/-- Key names with the state each is to get. -/
abbrev KeyUpdate := List (String × Option Bool)

namespace KeyUpdate

/-- The value of a name that is a natural number below `2 ^ 32 - 1` written plainly, without sign
or leading zeros. -/
def plainIndex? (name : String) : Option Nat :=
  (Numeral.natural? 10 name.toList).filter fun n =>
    decide (n < 0xFFFFFFFF) && toString n == name

/-- The state that a name gets: that of its last entry. -/
def lastState (update : KeyUpdate) (name : String) : Option Bool :=
  (update.reverse.lookup name).join

/-- The names in the order in which they are applied. -/
def orderedNames (update : KeyUpdate) : List String :=
  let names := (update.map (·.1)).eraseDups
  ((names.filterMap plainIndex?).mergeSort (· ≤ ·)).map toString ++
    names.filter fun name => (plainIndex? name).isNone

/-- The entries as they are applied: every name once, with its last state. -/
def ordered (update : KeyUpdate) : KeyUpdate :=
  update.orderedNames.map fun name => (name, update.lastState name)

/-! ### Laws -/

/-- A plain name is the decimal text of its value. -/
theorem plainIndex?_eq_some_iff (name : String) (n : Nat) :
    plainIndex? name = some n ↔ name = toString n ∧ n < 0xFFFFFFFF := by
  unfold plainIndex?
  rw [Option.filter_eq_some_iff]
  simp only [Bool.and_eq_true, decide_eq_true_eq, beq_iff_eq]
  constructor
  · rintro ⟨-, hlt, rfl⟩
    exact ⟨rfl, hlt⟩
  · rintro ⟨rfl, hlt⟩
    refine ⟨?_, hlt, rfl⟩
    rw [Nat.toString_eq_ofList_toDigits, String.toList_ofList]
    exact Numeral.natural?_toDigits (by decide) (by decide) n

end KeyUpdate

namespace Keypad

/-- The keypad after the entries of an update in the order given, and the fault that ended it. -/
def applyEntries (p : Keypad) : KeyUpdate → Keypad × Option Fault
  | [] => (p, none)
  | (_, none) :: rest => p.applyEntries rest
  | (name, some pressed) :: rest =>
    match p.setKey (Numeral.read name) pressed with
    | .ok p => p.applyEntries rest
    | .error f => (p, some f)

/-- The keypad after an update, and the fault that ended it. -/
def setKeys (p : Keypad) (update : KeyUpdate) : Keypad × Option Fault :=
  p.applyEntries update.ordered

end Keypad

end Chip8
