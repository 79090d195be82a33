import Chip8.Keypad.Basic

/-!
# Key codes

A keymap gives the keys of a keyboard, named by their codes, a place on the keypad.  The standard
one lays the four rows of the keypad on the left-hand block of a keyboard, whatever its letters:

```text
1 2 3 C        1 2 3 4
4 5 6 D   on   Q W E R
7 8 9 E        A S D F
A 0 B F        Z X C V
```
-/

namespace Chip8

/-- Codes with the keys they stand for; of several entries of one code the last counts. -/
abbrev Keymap := List (String × Number)

namespace Keymap

/-- The conventional layout. -/
def standard : Keymap :=
  [("Digit1", .ofInt 0x1), ("Digit2", .ofInt 0x2), ("Digit3", .ofInt 0x3), ("Digit4", .ofInt 0xC),
    ("KeyQ", .ofInt 0x4), ("KeyW", .ofInt 0x5), ("KeyE", .ofInt 0x6), ("KeyR", .ofInt 0xD),
    ("KeyA", .ofInt 0x7), ("KeyS", .ofInt 0x8), ("KeyD", .ofInt 0x9), ("KeyF", .ofInt 0xE),
    ("KeyZ", .ofInt 0xA), ("KeyX", .ofInt 0x0), ("KeyC", .ofInt 0xB), ("KeyV", .ofInt 0xF)]

/-- The key of a code. -/
def key? (m : Keymap) (code : String) : Option Number := m.reverse.lookup code

end Keymap

/-- The keypad after a key event, and whether its code is one of the keymap. -/
def Keypad.applyEvent (p : Keypad) (m : Keymap) (code : String) (pressed : Bool) :
    Except Fault (Keypad × Bool) :=
  match m.key? code with
  | none => .ok (p, false)
  | some key => (p.setKey key pressed).map fun p => (p, true)

end Chip8
