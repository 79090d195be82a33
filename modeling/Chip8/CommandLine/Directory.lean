import Chip8.Fault

/-!
# Directories

The files that a command finds where it is started, as a value, and where paths lead from there.
The directory holds files by their names and no directory; around it only that is known which
every system has, devices included.

A path leads through its names one after the other (`Directory.walk`), each of them looked up in
the directory that the ones before lead to.  `Directory.find` is where a path leads that is to be
read, `Directory.target` the same for one to be written, whose last name may be new.
-/

namespace Chip8.CommandLine

/-- Files with their names. -/
structure Directory where
  files : List (String × List UInt8)

namespace Directory

/-! ### Places -/

/-- What a path can lead to. -/
inductive Place where
  /-- The directory where a command is started. -/
  | start
  /-- Some directory above it. -/
  | above
  /-- The directory where absolute paths start. -/
  | root
  /-- The directory of the devices. -/
  | devices
  /-- Some other directory in the root. -/
  | branch
  /-- A directory in the root that is kept nowhere and has no size. -/
  | view
  /-- A file in the directory where the command is started. -/
  | file (name : String)
  /-- A device whose size is zero and which keeps nothing. -/
  | device
  /-- A device whose size is zero and which takes nothing. -/
  | full
  /-- A file that is written somewhere else. -/
  | elsewhere
deriving DecidableEq, Repr

/-- Whether names can be looked up in a place. -/
def Place.isDirectory : Place → Bool
  | .start | .above | .root | .devices | .branch | .view => true
  | .file _ | .device | .full | .elsewhere => false

/-- The directory that a directory is in; the root is in itself. -/
def Place.parent : Place → Place
  | .start | .above => .above
  | _ => .root

/-- The directories that the root has on every system and that take up space. -/
def branches : List String :=
  ["bin", "boot", "etc", "home", "lib", "media", "mnt", "opt", "root", "run", "sbin", "srv",
    "tmp", "usr", "var"]

/-- The directories that the root has on every system and that show the state of the system. -/
def views : List String := ["proc", "sys"]

/-- The devices whose size is zero and which keep nothing that is written to them. -/
def sizelessDevices : List String := ["null", "zero", "random", "urandom"]

/-- Whether a file has this name. -/
def has (d : Directory) (name : String) : Bool := (d.files.lookup name).isSome

/-- The place that a name has in a directory. -/
def lookup? (d : Directory) (within : Place) (name : String) : Option Place :=
  if name = "." then some within
  else if name = ".." then some within.parent
  else
    match within with
    | .start => if d.has name then some (.file name) else none
    | .root =>
      if name = "dev" then some .devices
      else if name ∈ branches then some .branch
      else if name ∈ views then some .view
      else none
    | .devices =>
      if name = "full" then some .full
      else if name ∈ sizelessDevices then some .device
      else none
    | _ => none

/-! ### Paths -/

/-- The most bytes that a name may have. -/
def nameLimit : Nat := 255

/-- The most bytes that a path may have. -/
def pathLimit : Nat := 4095

/-- The names that a path goes through. -/
def names (path : String) : List String :=
  (path.toList.splitOn '/').map String.ofList |>.filter (· ≠ "")

/-- Where the first name of a path is looked up. -/
def origin (path : String) : Place := if path.toList.head? = some '/' then .root else .start

/-- Whether a path ends in a slash, and so can only mean a directory. -/
def endsInSlash (path : String) : Bool := path.toList.getLast? == some '/'

/-- Refuses the path of no characters and one of too many. -/
def checkPath (path : String) : Except SystemError Unit :=
  if path.isEmpty then .error (.noSuchFile path)
  else if pathLimit < path.utf8ByteSize then .error (.nameTooLong path)
  else .ok ()

/-- Refuses a place in which no names can be looked up. -/
def checkDirectory (path : String) (place : Place) : Except SystemError Unit :=
  if place.isDirectory then .ok () else .error (.notDirectory path)

/-- Refuses a name of too many characters. -/
def checkName (path name : String) : Except SystemError Unit :=
  if nameLimit < name.utf8ByteSize then .error (.nameTooLong path) else .ok ()

/-- The place to which names lead, one after the other.  The path is told in errors. -/
def walk (d : Directory) (path : String) : Place → List String → Except SystemError Place
  | place, [] => .ok place
  | place, name :: rest => do
    checkDirectory path place
    checkName path name
    match d.lookup? place name with
    | some next => walk d path next rest
    | none => .error (.noSuchFile path)

/-- The place of a path that is to be read. -/
def find (d : Directory) (path : String) : Except SystemError Place := do
  checkPath path
  let place ← d.walk path (origin path) (names path)
  if endsInSlash path then checkDirectory path place
  return place

/-- The place of a new file in a directory, if it takes one. -/
def Place.create? (within : Place) (name : String) : Option Place :=
  match within with
  | .start => some (.file name)
  | .view => none
  | _ => some .elsewhere

/-- The place of a path that is to be written: a file, which may be new, or a device that takes
what is written. -/
def target (d : Directory) (path : String) : Except SystemError Place := do
  checkPath path
  match (names path).getLast? with
  | none => .error (.isDirectory path)
  | some name =>
    let within ← d.walk path (origin path) (names path).dropLast
    checkDirectory path within
    if name = "." ∨ name = ".." ∨ endsInSlash path then .error (.isDirectory path)
    checkName path name
    match (d.lookup? within name).or (within.create? name) with
    | none => .error (.noSuchFile path)
    | some .full => .error .noSpace
    | some place => if place.isDirectory then .error (.isDirectory path) else .ok place

/-! ### Reading -/

/-- The count of bytes that a directory itself takes. -/
def blockSize : Nat := 4096

/-- The bytes at a place.  A directory can be opened like a file, but not read: of a large one
this shows only after its size, which is all that matters where no program is that large. -/
def bytesAt (d : Directory) : Place → Except SystemError (List UInt8)
  | .file name => .ok ((d.files.lookup name).getD [])
  | .device | .full | .view | .elsewhere => .ok []
  | .devices => .error .directoryRead
  | _ => .ok (List.replicate blockSize 0)

/-- The bytes of what a path means. -/
def read (d : Directory) (path : String) : Except SystemError (List UInt8) :=
  (d.find path).bind d.bytesAt

end Directory

end Chip8.CommandLine
