import Minicomputer.Cpu
import Minicomputer.Text.ControlSequence
import Minicomputer.Text.Numeral

/-!
# Options of the command line

What somebody may ask for on the command line.  A *switch* is there or not; a *parameter* has a
value, which is checked as soon as it is known to belong to the parameter.

`Options` is what has been asked for so far.  What has not been asked for stays open until it is
needed, so that an option that is given twice can be told from one that has a default.
-/

namespace Minicomputer
namespace CommandLine

/-! ## Switches -/

/-- An option without a value. -/
inductive Switch where
  | info
  | instructions
  | showProgram
  | runOnly
  | noExecution
  | headless
  | debug
  deriving DecidableEq, Repr

namespace Switch

def all : List Switch :=
  [info, instructions, showProgram, runOnly, noExecution, headless, debug]

def name : Switch → String
  | info => "info"
  | instructions => "instructions"
  | showProgram => "showprog"
  | runOnly => "run"
  | noExecution => "no-exec"
  | headless => "headless"
  | debug => "debug"

def help : Switch → String
  | info => "Print the instruction set and exit"
  | instructions => "Same as --info"
  | showProgram => "Print the disassembled program before running it"
  | runOnly => "Run the assembled program without writing an image"
  | noExecution => "Stop after assembling"
  | headless => "Run without the console renderer"
  | debug => "Log every executed instruction"

def label (switch : Switch) : String :=
  "--" ++ switch.name

def ofName? (name : String) : Option Switch :=
  all.find? (·.name = name)

end Switch

/-! ## Parameters -/

/-- Something that has a value. -/
inductive Parameter where
  | image
  | source
  | out
  | memoryWords
  | snapshotInterval
  | bridgeCapacity
  deriving DecidableEq, Repr

namespace Parameter

/-- The parameters that are given by name.  The image is given by its place. -/
def named : List Parameter :=
  [source, out, memoryWords, snapshotInterval, bridgeCapacity]

def name : Parameter → String
  | image => "image"
  | source => "assemble"
  | out => "out"
  | memoryWords => "memory-words"
  | snapshotInterval => "snapshot-interval"
  | bridgeCapacity => "bridge-capacity"

def placeholder : Parameter → String
  | image => "IMAGE"
  | source => "SOURCE"
  | out => "FILE"
  | memoryWords => "MEMORY_WORDS"
  | snapshotInterval => "SNAPSHOT_INTERVAL"
  | bridgeCapacity => "BRIDGE_CAPACITY"

/-- The variable of the environment that has the value if none is given. -/
def variableName? : Parameter → Option String
  | image | source | out => none
  | memoryWords => some "PATCHY_MEMORY_WORDS"
  | snapshotInterval => some "PATCHY_SNAPSHOT_INTERVAL"
  | bridgeCapacity => some "PATCHY_BRIDGE_CAPACITY"

def help : Parameter → String
  | image => "Binary image to load and run"
  | source => "Assemble this source file"
  | out => "Where --assemble writes the binary image [default: out.bin]"
  | memoryWords => "Data memory size in 16 bit words [env: PATCHY_MEMORY_WORDS=] [default: 4096]"
  | snapshotInterval =>
    "Send the renderer a snapshot every N cycles; 0 disables snapshots " ++
      "[env: PATCHY_SNAPSHOT_INTERVAL=] [default: 1]"
  | bridgeCapacity =>
    "Bound on queued renderer events; unbounded when absent [env: PATCHY_BRIDGE_CAPACITY=]"

def label (parameter : Parameter) : String :=
  match parameter with
  | image => "[" ++ parameter.placeholder ++ "]"
  | _ => "--" ++ parameter.name ++ " <" ++ parameter.placeholder ++ ">"

def ofName? (name : String) : Option Parameter :=
  named.find? (·.name = name)

end Parameter

/-! ## Misuse -/

inductive NumberProblem where
  | unreadable (cause : Text.IntegerError)
  | outOfRange (value : Int)
  deriving DecidableEq, Repr

namespace NumberProblem

/-- The wording of the problem.  Only the size of the memory has a range of its own. -/
def message : NumberProblem → String
  | unreadable cause => cause.message
  | outOfRange value =>
    Text.signedDecimal value ++ " is not in 1..=" ++ Text.decimal Config.maxMemoryWords

end NumberProblem

inductive UsageError where
  | unexpectedArgument (argument : String)
  | unexpectedValue (value option : String)
  | missingValue (option : String)
  | repeated (option : String)
  | invalidNumber (value option : String) (problem : NumberProblem)
  /-- There is nothing to assemble, to run or to list. -/
  | nothingToDo
  deriving DecidableEq, Repr

namespace UsageError

/-- Something that has been typed, as it is quoted in a message: without what a terminal would obey.
A sequence that has no end in it swallows nothing of the message. -/
def quoted (typed : String) : String :=
  "'" ++ Text.withoutControls typed ++ "'"

def message : UsageError → String
  | unexpectedArgument argument => "unexpected argument " ++ quoted argument ++ " found"
  | unexpectedValue value option =>
    "unexpected value " ++ quoted value ++ " for '" ++ option ++ "' found; no more were expected"
  | missingValue option => "a value is required for '" ++ option ++ "' but none was supplied"
  | repeated option => "the argument '" ++ option ++ "' cannot be used multiple times"
  | invalidNumber value option problem =>
    "invalid value " ++ quoted value ++ " for '" ++ option ++ "': " ++ problem.message
  | nothingToDo => "give an IMAGE to run, --assemble SOURCE, or --instructions"

end UsageError

/-! ## Options -/

structure Options where
  switches : List Switch
  image : Option String
  source : Option String
  out : Option String
  memoryWords : Option Nat
  snapshotInterval : Option Nat
  bridgeCapacity : Option Nat
  deriving DecidableEq, Repr

namespace Options

def empty : Options :=
  ⟨[], none, none, none, none, none, none⟩

def has (options : Options) (switch : Switch) : Bool :=
  options.switches.contains switch

def isGiven (options : Options) : Parameter → Bool
  | .image => options.image.isSome
  | .source => options.source.isSome
  | .out => options.out.isSome
  | .memoryWords => options.memoryWords.isSome
  | .snapshotInterval => options.snapshotInterval.isSome
  | .bridgeCapacity => options.bridgeCapacity.isSome

def outPath (options : Options) : String :=
  options.out.getD "out.bin"

def config (options : Options) : Config :=
  ⟨options.memoryWords.getD Config.standard.memoryWords,
    options.snapshotInterval.getD Config.standard.snapshotInterval⟩

/-! ### Values -/

/-- The value of a path, which must not be empty. -/
def readPath (parameter : Parameter) (value : String) : Except UsageError String :=
  if value = "" then .error (.missingValue parameter.label) else .ok value

/-- The value of a number that fits in 64 bits. -/
def readCount (parameter : Parameter) (value : String) : Except UsageError Nat :=
  match Text.readInteger 0 0xFFFFFFFFFFFFFFFF value with
  | .error cause => .error (.invalidNumber value parameter.label (.unreadable cause))
  | .ok number => .ok number.toNat

/-- The size of the memory.  It is read as a signed number first, so that a negative one is out of
range rather than unreadable. -/
def readMemoryWords (value : String) : Except UsageError Nat :=
  let label := Parameter.memoryWords.label
  match Text.readInteger (-0x8000000000000000) 0x7FFFFFFFFFFFFFFF value with
  | .error cause => .error (.invalidNumber value label (.unreadable cause))
  | .ok number =>
    if 1 ≤ number ∧ number ≤ Config.maxMemoryWords then .ok number.toNat
    else .error (.invalidNumber value label (.outOfRange number))

def store (options : Options) (value : String) : Parameter → Except UsageError Options
  | .image => (readPath .image value).map fun path => { options with image := some path }
  | .source => (readPath .source value).map fun path => { options with source := some path }
  | .out => (readPath .out value).map fun path => { options with out := some path }
  | .memoryWords =>
    (readMemoryWords value).map fun words => { options with memoryWords := some words }
  | .snapshotInterval =>
    (readCount .snapshotInterval value).map fun cycles =>
      { options with snapshotInterval := some cycles }
  | .bridgeCapacity =>
    (readCount .bridgeCapacity value).map fun events =>
      { options with bridgeCapacity := some events }

/-- Gives a parameter its value, which it must not have yet. -/
def give (options : Options) (parameter : Parameter) (value : String) : Except UsageError Options :=
  if options.isGiven parameter then .error (.repeated parameter.label)
  else options.store value parameter

/-- Turns on a switch, which must not be on yet. -/
def turnOn (options : Options) (switch : Switch) : Except UsageError Options :=
  if options.has switch then .error (.repeated switch.label)
  else .ok { options with switches := options.switches ++ [switch] }

/-- Takes what is still open from the environment. -/
def completeFrom (environment : String → Option String) (options : Options) :
    List Parameter → Except UsageError Options
  | [] => .ok options
  | parameter :: parameters =>
    match parameter.variableName?.bind environment with
    | none => completeFrom environment options parameters
    | some value =>
      -- What is given on the command line wins, and the variable is not even read.
      if options.isGiven parameter then completeFrom environment options parameters
      else match options.store value parameter with
        | .error e => .error e
        | .ok options => completeFrom environment options parameters

end Options

/-! ## Tasks -/

inductive Task where
  /-- List the instruction set. -/
  | list
  /-- Assemble a file, and perhaps run what comes of it. -/
  | assemble (source : String)
  /-- Run an image. -/
  | run (image : String)
  deriving DecidableEq, Repr

namespace Options

/-- The task that is asked for: the listing before everything else, and a source before an image. -/
def task (options : Options) : Except UsageError Task :=
  if options.has .info || options.has .instructions then .ok .list
  else match options.source, options.image with
    | some source, _ => .ok (.assemble source)
    | none, some image => .ok (.run image)
    | none, none => .error .nothingToDo

end Options
end CommandLine
end Minicomputer
