import Minicomputer.CommandLine.Options

/-!
# Help

The text that describes the command line: one line for the image, and one for every option, with
the descriptions in a column of their own.
-/

namespace Minicomputer
namespace CommandLine

def programName : String :=
  "patchy"

def versionText : String :=
  programName ++ " 0.1.0\n"

def usageText : String :=
  "Usage: " ++ programName ++ " [OPTIONS] " ++ Parameter.image.label ++ "\n"

def switchRow (switch : Switch) : String × String :=
  ("    " ++ switch.label, switch.help)

def parameterRow (parameter : Parameter) : String × String :=
  ("    " ++ parameter.label, parameter.help)

def optionRows : List (String × String) :=
  [ switchRow .info,
    switchRow .instructions,
    parameterRow .source,
    switchRow .showProgram,
    switchRow .runOnly,
    switchRow .noExecution,
    switchRow .headless,
    parameterRow .out,
    switchRow .debug,
    parameterRow .memoryWords,
    parameterRow .snapshotInterval,
    parameterRow .bridgeCapacity,
    ("-h, --help", "Print help"),
    ("-V, --version", "Print version") ]

/-- Labels in a column that is as wide as the longest of them, then the descriptions. -/
def alignRows (rows : List (String × String)) : String :=
  let width := rows.foldl (fun widest row => max widest row.1.length) 0
  String.join (rows.map fun (label, description) =>
    "  " ++ String.ofList (label.toList.rightpad width ' ') ++ "  " ++ description ++ "\n")

def helpText : String :=
  "A small virtual computer: assembler, binary images, and CPU\n\n" ++ usageText ++
    "\nArguments:\n" ++ alignRows [(Parameter.image.label, Parameter.image.help)] ++
    "\nOptions:\n" ++ alignRows optionRows

end CommandLine
end Minicomputer
