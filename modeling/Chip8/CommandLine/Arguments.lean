import Chip8.Config

/-!
# Arguments

A flag is `--name=value`; the trace command also knows flags without a value.  Of several flags
with one name the last counts, and arguments that are no flags are passed over.
-/

namespace Chip8.CommandLine

/-- What a flag says: a text, or only that it is there. -/
inductive FlagValue where
  | text (s : String)
  | bare
deriving DecidableEq, Repr

/-- Flags with their values, in the order given. -/
abbrev Flags := List (String × FlagValue)

/-- Whether a character ends a line; the value of a flag has none. -/
def endsLine (c : Char) : Bool := c = '\n' || c = '\r' || c = '\u2028' || c = '\u2029'

/-- The name and the value of a flag that has a value. -/
def valueFlag? (arg : String) : Option (String × FlagValue) :=
  match arg.toList with
  | '-' :: '-' :: cs =>
    match cs.takeWhile (· ≠ '='), cs.dropWhile (· ≠ '=') with
    | c :: name, '=' :: value =>
      if value.any endsLine then none
      else some (String.ofList (c :: name), .text (String.ofList value))
    | _, _ => none
  | _ => none

/-- The name of a flag that is taken to have no value. -/
def bareFlag? (arg : String) : Option (String × FlagValue) :=
  match arg.toList with
  | '-' :: '-' :: cs => some (String.ofList cs, .bare)
  | _ => none

namespace Flags

/-- The flags with a value. -/
def ofValues (args : List String) : Flags := args.filterMap valueFlag?

/-- The flags with a value and those without. -/
def ofArguments (args : List String) : Flags :=
  args.filterMap fun arg => (valueFlag? arg).or (bareFlag? arg)

/-- The value of a flag. -/
def value? (flags : Flags) (name : String) : Option FlagValue := flags.reverse.lookup name

/-- The text of a flag. -/
def text? (flags : Flags) (name : String) : Option String :=
  match flags.value? name with
  | some (.text s) => some s
  | _ => none

/-- The text of a flag, if there is any. -/
def nonempty? (flags : Flags) (name : String) : Option String :=
  (flags.text? name).filter (· ≠ "")

/-- The number of a flag, but at least one; a flag that denotes none gets a default. -/
def positive (flags : Flags) (name : String) (default : Rat) : Rat :=
  Number.greater 1 ((Config.rational? (flags.text? name)).getD default)

end Flags

end Chip8.CommandLine
