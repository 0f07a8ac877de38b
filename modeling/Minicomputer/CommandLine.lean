import Minicomputer.Architecture.Standard
import Minicomputer.Assembly.Assembler
import Minicomputer.CommandLine.Arguments
import Minicomputer.CommandLine.Help
import Minicomputer.Console.Conversation
import Minicomputer.ImageFile

/-!
# The command line

One call of the machine from the command line: it lists the instruction set, assembles a file, runs
an image, or assembles a file and runs what comes of it.

What a call needs from outside -- files and the standard input -- is in `Surroundings`, for any
monad.  With a `FileSystem` as the state of the monad a call is a function from one file system to
another, about which something can be said; with the files of the computer it is the program
itself.

A call comes to a `Report`.  The exit status and what is printed on the standard error output are
read off its conclusion, so they cannot contradict each other.
-/

namespace Minicomputer
namespace CommandLine

/-! ## Surroundings -/

/-- Access to files and to the standard input. -/
structure Surroundings (m : Type → Type) where
  readFile : String → m (Except FileError Bytes)
  writeFile : String → Bytes → m (Except FileError Unit)
  readInput : m Bytes

def Surroundings.ofInput (input : Bytes) : Surroundings (StateM FileSystem) where
  readFile path := return (← get).read path
  writeFile path content := do
    match (← get).write path content with
    | .error cause => return .error cause
    | .ok files =>
      set files
      return .ok ()
  readInput := return input

/-! ## Reports -/

inductive CommandError where
  | unreadableSource (path : String) (cause : FileError)
  | unassembled (path : String) (cause : AssemblyError)
  | image (cause : ImageError)
  | console (cause : ConsoleFailure)
  deriving DecidableEq, Repr

namespace CommandError

/-- The wording of the error, with everything that is behind it.  The message of an image error
already ends with its cause, which is therefore named twice. -/
def message : CommandError → String
  | unreadableSource path cause => "reading " ++ path ++ ": " ++ cause.message
  | unassembled path cause => "assembling " ++ path ++ ": " ++ cause.message
  | image cause =>
    match cause.cause? with
    | none => cause.message
    | some origin => cause.message ++ ": " ++ origin.message
  | console .unreadableInput => "writing to the console: " ++ FileError.notText.message
  | console .refusedOutput => "writing to the console: Broken pipe (os error 32)"

end CommandError

inductive Conclusion where
  /-- Help, the version, or the instruction set has been shown. -/
  | shown
  | misused (error : UsageError)
  | failed (error : CommandError)
  /-- A file has been assembled, and nothing has been run. -/
  | assembled
  /-- A program has been run, and perhaps a core dump is shown. -/
  | ran (summary : RunSummary) (dump : Option CoreDump)
  deriving DecidableEq, Repr

namespace Conclusion

/-- The exit status: 0 for success, 1 for a failure of the call, 2 for a fault of the program that
was run or a misuse of the command line, 130 for an interrupt. -/
def exitStatus : Conclusion → Nat
  | shown | assembled => 0
  | failed _ => 1
  | misused _ => 2
  | ran summary _ =>
    if summary.interrupted then 130
    else match summary.status with
      | .faulted _ => 2
      | .ready | .running | .halted => 0

def errorText : Conclusion → String
  | shown | assembled | ran _ none => ""
  | ran _ (some dump) => dump.text ++ "\n"
  | failed error => "error: " ++ error.message ++ "\n"
  | misused error =>
    "error: " ++ error.message ++ "\n\n" ++ usageText ++
      "\nFor more information, try '--help'.\n"

end Conclusion

/-- What a call comes to: how it ends, and what has been printed on the standard output. -/
structure Report where
  conclusion : Conclusion
  output : Output
  deriving DecidableEq, Repr

def Report.ofText (conclusion : Conclusion) (text : String) : Report :=
  ⟨conclusion, (Output.unlimited.print (Text.toBytes text)).2⟩

/-! ## Programs -/

/-- A disassembled program, a line for every instruction with its address. -/
def programText (program : Program) : String :=
  String.join (program.toList.zipIdx.map fun (instruction, address) =>
    "  " ++ Text.prefixedHex 1 address ++ " " ++
      Architecture.standard.disassemble instruction ++ "\n")

def shownProgram (options : Options) (program : Program) : String :=
  if options.has .showProgram then programText program else ""

/-- The program of a source file and what there is to say about it, given what came of reading the
file. -/
def assembleContent (path : String) :
    Except FileError Bytes → Except CommandError (Program × AssemblySummary)
  | .error cause => .error (.unreadableSource path cause)
  | .ok content =>
    match Text.ofBytes? content with
    | none => .error (.unreadableSource path .notText)
    | some text =>
      match Assembler.assemble .standard text with
      | .error cause => .error (.unassembled path cause)
      | .ok result => .ok result

/-! ## Runs -/

/-- Runs a processor that nobody watches.  `printed` is what has been printed before. -/
def runHeadless (options : Options) (cpu : Cpu) (printed : String) : Option Report :=
  (cpu.run .silent (fun _ => false) Cpu.patience ()).map fun (interrupted, cpu, _) =>
    let summary := cpu.summary interrupted
    let dump := if options.has .debug then some cpu.dumpCore else none
    .ofText (.ran summary dump) (printed ++ summary.text ++ "\n")

/-- Runs a processor at the console, which prints behind what has been printed before. -/
def runAtConsole (cpu : Cpu) (input : Bytes) (printed : String) : Option Report :=
  let (_, output) := Output.unlimited.print (Text.toBytes printed)
  (cpu.converse (.new input output)).map fun (cpu, conversation) =>
    let output := conversation.console.output
    match conversation.console.outcome with
    | .error cause => ⟨.failed (.console cause), output⟩
    | .ok _ =>
      let summary := cpu.summary false
      ⟨.ran summary none, (output.print (Text.toBytes (summary.text ++ "\n"))).2⟩

/-- Runs a program.  There is no report if the run does not end. -/
def runProgram {m : Type → Type} [Monad m] (surroundings : Surroundings m) (options : Options)
    (program : Program) (printed : String) : m (Option Report) := do
  let cpu := Cpu.boot .standard options.config program
  let printed := printed ++ shownProgram options program
  if options.has .headless then
    return runHeadless options cpu printed
  else
    return runAtConsole cpu (← surroundings.readInput) printed

/-! ## Calls -/

/-- Writes the image of an assembled program, unless it is only to be run. -/
def writeImage {m : Type → Type} [Monad m] (surroundings : Surroundings m) (options : Options)
    (program : Program) : m (Except CommandError Unit) := do
  if options.has .runOnly then
    return .ok ()
  else
    match ← surroundings.writeFile options.outPath program.image with
    | .error cause => return .error (.image (.unwritable options.outPath cause))
    | .ok () => return .ok ()

def perform {m : Type → Type} [Monad m] (surroundings : Surroundings m) (options : Options) :
    Task → m (Option Report)
  | .list =>
    return some (.ofText .shown (Architecture.standard.listing ++ "\n"))
  | .run image => do
    match ImageFile.programOf image (← surroundings.readFile image) with
    | .error cause => return some (.ofText (.failed (.image cause)) "")
    | .ok program => runProgram surroundings options program ""
  | .assemble source => do
    match assembleContent source (← surroundings.readFile source) with
    | .error error => return some (.ofText (.failed error) "")
    | .ok (program, summary) =>
      -- The summary is printed before the image is written, so it is there even if that fails.
      match ← writeImage surroundings options program with
      | .error error => return some (.ofText (.failed error) summary.text)
      | .ok () =>
        if options.has .noExecution then
          return some (.ofText .assembled (summary.text ++ shownProgram options program))
        else
          runProgram surroundings options program summary.text

def call {m : Type → Type} [Monad m] (surroundings : Surroundings m) (arguments : List String)
    (environment : String → Option String) : m (Option Report) :=
  match readArguments arguments environment with
  | .error .helpRequested => return some (.ofText .shown helpText)
  | .error .versionRequested => return some (.ofText .shown versionText)
  | .error (.misused error) => return some (.ofText (.misused error) "")
  | .ok options =>
    match options.task with
    | .error error => return some (.ofText (.misused error) "")
    | .ok task => perform surroundings options task

end CommandLine
end Minicomputer
