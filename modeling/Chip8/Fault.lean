import Chip8.Number.Text
import Chip8.Text.Basic

/-!
# Faults and failures

A `Fault` is an error of the machine itself: a code, a detail, and the circumstances known when it
arose or added on its way out (`Fault.withContext`, where what is known first stays).  A `Failure`
is whatever can end an operation: a fault, an error raised by the host (such as a random source
that refuses), a block of storage that cannot hold what it should, or an error of the operating
system.
-/

namespace Chip8

/-! ### Faults -/

/-- The kinds of fault. -/
inductive FaultCode where
  | romTooLarge
  | truncatedSource
  | unknownOpcode
  | stackOverflow
  | stackUnderflow
  | outOfBounds
deriving DecidableEq, Repr

/-- The name of a kind of fault, which its message starts with. -/
def FaultCode.name : FaultCode → String
  | .romTooLarge => "RomTooLarge"
  | .truncatedSource => "TruncatedSource"
  | .unknownOpcode => "UnknownOpcode"
  | .stackOverflow => "StackOverflow"
  | .stackUnderflow => "StackUnderflow"
  | .outOfBounds => "OutOfBounds"

/-- The circumstances of a fault, as far as they are known: the address of the faulting
instruction, its word, and the address it could not use. -/
structure FaultContext where
  pc? : Option Number := none
  opcode? : Option Number := none
  addr? : Option Number := none
deriving DecidableEq, Repr, Inhabited

/-- Both circumstances together; what the first knows counts. -/
def FaultContext.orElse (first second : FaultContext) : FaultContext where
  pc? := first.pc?.or second.pc?
  opcode? := first.opcode?.or second.opcode?
  addr? := first.addr?.or second.addr?

/-- A number in a message: base sixteen, upper case, at least four digits. -/
def fourDigits (n : Number) : String :=
  String.ofList (Text.padZeros 4 (Text.upper n.hex.toList))

/-- What a message says about where a fault arose. -/
def FaultContext.place (c : FaultContext) : List String :=
  (c.pc?.map fun pc => "PC=" ++ fourDigits pc).toList ++
    (c.opcode?.map fun op => "OP=" ++ fourDigits op).toList

/-- An error of the machine. -/
structure Fault where
  code : FaultCode
  detail : String
  context : FaultContext := {}
deriving DecidableEq, Repr

namespace Fault

/-- The fault with more of its circumstances; those already known stay. -/
def withContext (f : Fault) (context : FaultContext) : Fault :=
  { f with context := f.context.orElse context }

/-- The message of a fault. -/
def message (f : Fault) : String :=
  let what := f.code.name ++ ": " ++ f.detail
  match f.context.place with
  | [] => what
  | place => what ++ " (" ++ " ".intercalate place ++ ")"

/-- Whether the fault arose from a program image, before the machine was touched. -/
def isLoadFault (f : Fault) : Bool :=
  f.code = .romTooLarge || f.code = .truncatedSource

end Fault

/-! ### Failures -/

/-- An error of the operating system. -/
structure SystemError where
  code : String
  message : String
deriving DecidableEq, Repr

namespace SystemError

/-- What is told about a path that cannot be opened. -/
def opening (code reason path : String) : SystemError where
  code := code
  message := code ++ ": " ++ reason ++ ", open '" ++ path ++ "'"

/-- No file has this path. -/
def noSuchFile : String → SystemError := opening "ENOENT" "no such file or directory"

/-- The path goes through a file. -/
def notDirectory : String → SystemError := opening "ENOTDIR" "not a directory"

/-- The path names a directory where a file is meant. -/
def isDirectory : String → SystemError := opening "EISDIR" "illegal operation on a directory"

/-- A directory has been opened and cannot be read. -/
def directoryRead : SystemError where
  code := "EISDIR"
  message := "EISDIR: illegal operation on a directory, read"

/-- A device has been opened and has no room for what is written to it. -/
def noSpace : SystemError where
  code := "ENOSPC"
  message := "ENOSPC: no space left on device, write"

/-- A name in the path, or the path itself, is too long. -/
def nameTooLong : String → SystemError := opening "ENAMETOOLONG" "name too long"

end SystemError

/-- Whatever can end an operation. -/
inductive Failure where
  | fault (f : Fault)
  | host (message : String)
  | range (reason : String)
  | system (e : SystemError)
deriving DecidableEq, Repr

namespace Failure

/-- The message of a failure. -/
def message : Failure → String
  | .fault f => f.message
  | .host message => message
  | .range reason => "RangeError: " ++ reason
  | .system e => e.message

/-- A fault gets more of its circumstances; other failures stay as they are. -/
def withContext (context : FaultContext) : Failure → Failure
  | .fault f => .fault (f.withContext context)
  | e => e

/-- Whether the failure is a fault, of the given kind if one is given. -/
def isFault (code? : Option FaultCode) : Failure → Bool
  | .fault f => code?.all (f.code == ·)
  | _ => false

end Failure

/-! ### Laws of circumstances -/

namespace FaultContext

@[simp] theorem orElse_empty (c : FaultContext) : c.orElse {} = c := by
  simp [orElse]

@[simp] theorem empty_orElse (c : FaultContext) : FaultContext.orElse {} c = c := by
  simp [orElse]

theorem orElse_assoc (a b c : FaultContext) : (a.orElse b).orElse c = a.orElse (b.orElse c) := by
  simp [orElse, Option.or_assoc]

end FaultContext

end Chip8
