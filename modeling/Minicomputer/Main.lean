import Minicomputer.CommandLine

/-!
# The program

The command line with the files of the computer and its standard streams.  Everything that there is
to decide is decided in `CommandLine.call`.
-/

open Minicomputer

namespace Minicomputer
namespace Main

/-- What an error of the computer is called here.  Some of its calls report the number of an error
with the opposite sign. -/
def fileErrorOf (error : IO.Error) : FileError :=
  let isNumber (code number : UInt32) : Bool := code == number || code == 0 - number
  match error with
  | .noFileOrDirectory .. => .notFound
  | .inappropriateType _ code _ => if isNumber code 20 then .notDirectory else .isDirectory
  | .invalidArgument _ code _ =>
    if isNumber code 36 then .nameTooLong else .other (toString error)
  | error => .other (toString error)

def surroundings : CommandLine.Surroundings IO where
  readFile path := do
    try
      return .ok (← IO.FS.readBinFile path).data.toList
    catch error =>
      return .error (fileErrorOf error)
  writeFile path content := do
    try
      IO.FS.writeBinFile path ⟨content.toArray⟩
      return .ok ()
    catch error =>
      return .error (fileErrorOf error)
  readInput := do
    return (← (← IO.getStdin).readBinToEnd).data.toList

def environment : IO (String → Option String) := do
  let names := CommandLine.Parameter.named.filterMap (·.variableName?)
  let values ← names.mapM fun name => return (name, ← IO.getEnv name)
  return fun name => (values.lookup name).join

end Main
end Minicomputer

/-- Calls the machine, prints what the call reports, and exits with its status. -/
def main (arguments : List String) : IO UInt32 := do
  let environment ← Minicomputer.Main.environment
  match ← CommandLine.call Minicomputer.Main.surroundings arguments environment with
  | none => return 1
  | some report =>
    (← IO.getStdout).write ⟨report.output.bytes.toArray⟩
    (← IO.getStderr).putStr report.conclusion.errorText
    return UInt32.ofNat report.conclusion.exitStatus
