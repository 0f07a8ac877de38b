import Minicomputer.FileSystem
import Minicomputer.Program
import Minicomputer.Text.Numeral

/-!
# Images in files

A program is kept as its image in a file.  Reading it back can fail because of the file, and because
what is in the file is no image.
-/

namespace Minicomputer

inductive ImageError where
  | unreadable (path : String) (cause : FileError)
  | unwritable (path : String) (cause : FileError)
  /-- So many bytes are left after the last whole word. -/
  | truncated (path : String) (trailing : Nat)
  deriving DecidableEq, Repr

namespace ImageError

def message : ImageError → String
  | unreadable path cause => "failed to read " ++ path ++ ": " ++ cause.message
  | unwritable path cause => "failed to write " ++ path ++ ": " ++ cause.message
  | truncated path trailing =>
    path ++ " ends with a truncated word (" ++ Text.decimal trailing ++ " trailing byte(s))"

/-- The error of the file that is behind it, if any. -/
def cause? : ImageError → Option FileError
  | unreadable _ cause | unwritable _ cause => some cause
  | truncated .. => none

end ImageError

namespace ImageFile

/-- The program whose image a file holds, given what came of reading the file. -/
def programOf (path : String) : Except FileError Bytes → Except ImageError Program
  | .error cause => .error (.unreadable path cause)
  | .ok content =>
    match Program.ofImage content with
    | .error trailing => .error (.truncated path trailing)
    | .ok program => .ok program

def read (files : FileSystem) (path : String) : Except ImageError Program :=
  programOf path (files.read path)

def write (files : FileSystem) (path : String) (program : Program) :
    Except ImageError FileSystem :=
  match files.write path program.image with
  | .error cause => .error (.unwritable path cause)
  | .ok files => .ok files

end ImageFile
end Minicomputer
