import Minicomputer.Text.Lines
import Minicomputer.Text.Utf8

/-!
# File systems

Files and directories, as far as programs that read and write whole files can tell: where a path
leads, what is there, and why it cannot be read or written.

A *location* is a list of names from the top directory down.  A *path* is what is typed: it starts
at the working directory unless it begins with a slash, and goes through its components one after
the other.  The components `.` and `..` have their usual meaning, and so has a slash at the end:
what stands before it has to be a directory.

Nobody else changes the files, and everybody may read and write them.
-/

namespace Minicomputer

inductive FileError where
  | notFound
  | notDirectory
  | isDirectory
  | nameTooLong
  /-- The path has a NUL in it, which no path can have. -/
  | nulInPath
  /-- The file is there but does not hold a text. -/
  | notText
  /-- Something else, in the words of whoever keeps the files. -/
  | other (description : String)
  deriving DecidableEq, Repr

namespace FileError

def message : FileError → String
  | notFound => "No such file or directory (os error 2)"
  | notDirectory => "Not a directory (os error 20)"
  | isDirectory => "Is a directory (os error 21)"
  | nameTooLong => "File name too long (os error 36)"
  | nulInPath => "file name contained an unexpected NUL byte"
  | notText => "stream did not contain valid UTF-8"
  | other description => description

end FileError

/-! ## Contents -/

/-- A place in the tree of directories: the names that lead to it from the top. -/
abbrev Location := List String

inductive FileNode where
  | file (content : Bytes)
  | directory
  deriving DecidableEq, Repr

/-- Files and directories with their locations.  The top directory is always there. -/
structure FileSystem where
  nodes : List (Location × FileNode)
  workingDirectory : Location
  deriving DecidableEq, Repr

namespace FileSystem

def empty : FileSystem :=
  ⟨[(["work"], .directory)], ["work"]⟩

def node? (files : FileSystem) (location : Location) : Option FileNode :=
  if location = [] then some .directory else files.nodes.lookup location

def isDirectory (files : FileSystem) (location : Location) : Bool :=
  files.node? location = some .directory

def set (files : FileSystem) (location : Location) (node : FileNode) : FileSystem :=
  { files with nodes := (location, node) :: files.nodes.filter (·.1 ≠ location) }

/-- The files with the names that lead to them from the working directory. -/
def contents (files : FileSystem) : List (Location × Bytes) :=
  files.nodes.filterMap fun (location, node) =>
    match node with
    | .file content =>
      if files.workingDirectory.isPrefixOf location then
        some (location.drop files.workingDirectory.length, content)
      else none
    | .directory => none

/-! ## Paths -/

def maxNameBytes : Nat := 255

def maxPathBytes : Nat := 4095

/-- The components of a path: what stands between its slashes. -/
def components (path : String) : List String :=
  (Text.pieces '/' path.toList).map String.ofList

def startOf (files : FileSystem) (path : String) : Location :=
  if path.toList.head? = some '/' then [] else files.workingDirectory

/-- One component further.  Only a directory leads on. -/
def enter (files : FileSystem) (location : Location) (name : String) : Except FileError Location :=
  if !files.isDirectory location then .error .notDirectory
  -- Two slashes in a row have an empty component between them.
  else if name = "" ∨ name = "." then .ok location
  else if name = ".." then .ok location.dropLast
  else if maxNameBytes < name.utf8ByteSize then .error .nameTooLong
  else match files.node? (location ++ [name]) with
    | none => .error .notFound
    | some _ => .ok (location ++ [name])

def walk (files : FileSystem) (location : Location) : List String → Except FileError Location
  | [] => .ok location
  | name :: names =>
    match files.enter location name with
    | .error e => .error e
    | .ok next => files.walk next names

/-- What is wrong with a path wherever it leads. -/
def pathError? (path : String) : Option FileError :=
  if path.toList.contains '\x00' then some .nulInPath
  else if path = "" then some .notFound
  else if maxPathBytes < path.utf8ByteSize then some .nameTooLong
  else none

/-! ## Reading -/

def read (files : FileSystem) (path : String) : Except FileError Bytes :=
  match pathError? path with
  | some e => .error e
  | none =>
    match files.walk (files.startOf path) (components path) with
    | .error e => .error e
    | .ok location =>
      match files.node? location with
      | none => .error .notFound
      | some .directory => .error .isDirectory
      | some (.file content) => .ok content

/-! ## Writing -/

/-- A path with its last component apart, and whether slashes follow it. -/
def splitLast (path : String) : List String × String × Bool :=
  let reversed := (components path).reverse
  match reversed.dropWhile (· = "") with
  | [] => ([], "", true)
  | last :: others => (others.reverse, last, reversed.head? = some "")

/-- The location that a path names for writing, whether there is already a file or not.  Only
directories have names with a slash at the end, or `.` and `..`. -/
def target (files : FileSystem) (path : String) : Except FileError Location :=
  match pathError? path with
  | some e => .error e
  | none =>
    let (parents, last, slash) := splitLast path
    match files.walk (files.startOf path) parents with
    | .error e => .error e
    | .ok parent =>
      if !files.isDirectory parent then .error .notDirectory
      -- No file can have such a name, whatever is there already.
      else if slash ∨ last = "." ∨ last = ".." then .error .isDirectory
      else if maxNameBytes < last.utf8ByteSize then .error .nameTooLong
      else .ok (parent ++ [last])

/-- Writes a whole file, new or in place of what it held. -/
def write (files : FileSystem) (path : String) (content : Bytes) : Except FileError FileSystem :=
  match files.target path with
  | .error e => .error e
  | .ok location =>
    if files.isDirectory location then .error .isDirectory
    else .ok (files.set location (.file content))

/-- The tree with a directory at the end of a way, and wherever the way leads through nothing. -/
def makeWay (files : FileSystem) (location : Location) :
    List String → Except FileError FileSystem
  | [] => .ok files
  | name :: names =>
    match files.enter location name with
    | .ok next => files.makeWay next names
    | .error .notFound =>
      (files.set (location ++ [name]) .directory).makeWay (location ++ [name]) names
    | .error e => .error e

def makeDirectory (files : FileSystem) (path : String) : Except FileError FileSystem :=
  match pathError? path with
  | some e => .error e
  | none => files.makeWay (files.startOf path) (components path)

end FileSystem
end Minicomputer
