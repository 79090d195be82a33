import Chip8.CommandLine.Directory
import Chip8.Display.Png
import Chip8.Log

/-!
# Sessions

What a command does to the world, step by step: it prints, reads a file, writes a file, and ends
with an exit code.  A `Session` is such a course of events, open where the answer of the world
decides.  `Session.simulate` follows it in a `Directory`.
-/

namespace Chip8.CommandLine

/-- What a file is written with. -/
inductive Content where
  | text (s : String)
  | picture (img : Image)
deriving DecidableEq, Repr

/-- The bytes of a file. -/
def Content.bytes : Content → Array UInt8
  | .text s => s.toUTF8.data
  | .picture img => Png.encode img

/-- The course of a command. -/
inductive Session where
  | finish (exitCode : Nat)
  /-- Prints a text, to the error stream or the usual one. -/
  | print (toErrors : Bool) (text : String) (next : Session)
  | readFile (path : String) (next : Except SystemError (List UInt8) → Session)
  | writeFile (path : String) (content : Content) (next : Except SystemError Unit → Session)

namespace Session

/-- Prints log entries; warnings and errors go to the error stream. -/
def printLog (entries : List Log.Entry) (next : Session) : Session :=
  entries.foldr (fun e s => .print (e.channel != .console .plain) (e.line ++ "\n") s) next

/-- What a command has left behind: its exit code, what it printed, and the files it wrote. -/
structure Report where
  exitCode : Nat
  stdout : String
  stderr : List String
  files : List (String × Content)

/-- Follows a session after what the report so far tells. -/
def follow (dir : Directory) (report : Report) : Session → Report
  | finish exitCode => { report with exitCode }
  | print true text next => follow dir { report with stderr := report.stderr ++ [text] } next
  | print false text next => follow dir { report with stdout := report.stdout ++ text } next
  | readFile path next => follow dir report (next (dir.read path))
  | writeFile path content next =>
    match dir.target path with
    | .error e => follow dir report (next (.error e))
    | .ok (.file name) =>
      follow dir { report with files := report.files ++ [(name, content)] } (next (.ok ()))
    | .ok _ => follow dir report (next (.ok ()))

/-- Follows a session in a directory. -/
def simulate (dir : Directory) (s : Session) : Report := follow dir ⟨0, "", [], []⟩ s

end Session

end Chip8.CommandLine
