import Chip8.Fault

/-!
# The keypad

Sixteen keys, held or not.  A host sets them between steps and may name a key by any number; only
the integers 0 to 15 are keys (`Keypad.keyAt`), and a call with another number is a fault that
changes nothing.
-/

namespace Chip8

/-- The state of the keys. -/
structure Keypad where
  held : Vector Bool 16
deriving DecidableEq, Repr

namespace Keypad

/-- The keypad with no key held. -/
def released : Keypad := ⟨Vector.replicate 16 false⟩

/-- A number that is no key. -/
def keyFault (key : Number) : Fault where
  code := .outOfBounds
  detail := "keypad index " ++ key.decimal ++ " outside 0-15"

/-- The key with a number. -/
def keyAt (key : Number) : Except Fault (Fin 16) :=
  match key.toInt? with
  | some k => if h : 0 ≤ k ∧ k < 16 then .ok ⟨k.toNat, by omega⟩ else .error (keyFault key)
  | none => .error (keyFault key)

/-- The keypad with a key held or released. -/
def set (p : Keypad) (key : Fin 16) (pressed : Bool) : Keypad := ⟨p.held.set key pressed⟩

/-- The keypad with the key of a number held or released. -/
def setKey (p : Keypad) (key : Number) (pressed : Bool) : Except Fault Keypad :=
  (keyAt key).map fun k => p.set k pressed

/-- Whether a key is held. -/
def isHeld (p : Keypad) (key : Fin 16) : Bool := p.held[key]

/-- Whether the key of a number is held. -/
def isPressed (p : Keypad) (key : Number) : Except Fault Bool := (keyAt key).map p.isHeld

/-- Whether each key is held, from the first to the last. -/
def snapshot (p : Keypad) : List Bool := p.held.toList

/-- The lowest key that is held. -/
def firstPressed? (p : Keypad) : Option (Fin 16) := (List.finRange 16).find? p.isHeld

/-! ### Laws -/

@[simp] theorem isHeld_released (k : Fin 16) : released.isHeld k = false := by
  simp [isHeld, released]

theorem snapshot_eq (p : Keypad) : p.snapshot = (List.finRange 16).map p.isHeld := by
  refine List.ext_getElem (by simp [snapshot]) fun i hi _ => ?_
  simp [snapshot, isHeld]

theorem isHeld_set (p : Keypad) (k j : Fin 16) (pressed : Bool) :
    (p.set k pressed).isHeld j = if k = j then pressed else p.isHeld j := by
  simp [isHeld, set, Vector.getElem_set, Fin.ext_iff]

/-- The numbers of keys are the integers 0 to 15. -/
theorem keyAt_eq_ok_iff (key : Number) (k : Fin 16) :
    keyAt key = .ok k ↔ key.toInt? = some (k.val : Int) := by
  unfold keyAt
  cases key.toInt? with
  | none => simp
  | some n =>
    have := k.isLt
    simp only [Option.some.injEq]
    split
    · simp only [Except.ok.injEq, Fin.ext_iff]; omega
    · simp only [reduceCtorEq, false_iff]; omega

theorem firstPressed?_eq_none_iff (p : Keypad) :
    p.firstPressed? = none ↔ ∀ key, p.isHeld key = false := by
  simp [firstPressed?]

/-- The first key that is pressed is the lowest one. -/
theorem firstPressed?_eq_some_iff (p : Keypad) (key : Fin 16) :
    p.firstPressed? = some key ↔ p.isHeld key = true ∧ ∀ j < key, p.isHeld j = false := by
  rw [firstPressed?, List.find?_eq_some_iff_getElem]
  constructor
  · rintro ⟨hheld, k, hk, hkey, hbelow⟩
    have hval : k = key.val := by simpa using congrArg Fin.val hkey
    refine ⟨hheld, fun j hj => ?_⟩
    simpa using hbelow j.val (by omega)
  · rintro ⟨hheld, hbelow⟩
    refine ⟨hheld, key.val, by simp, by simp, fun j hj => ?_⟩
    simpa using hbelow ⟨j, by omega⟩ hj

end Keypad

end Chip8
