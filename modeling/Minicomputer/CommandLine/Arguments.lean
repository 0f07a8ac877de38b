import Minicomputer.CommandLine.Options

/-!
# Reading the arguments

Arguments are read from left to right.  A name begins with two hyphens and may have its value behind
an equals sign; otherwise the next argument is the value, if it does not look like a name itself.
Behind `--` nothing is a name any more.

A value in an argument of its own is checked only when something else has been recognised after it,
or at the end.  Until then it is *pending*, and an argument that cannot be recognised at all is
reported in preference to what is wrong with it.  A value behind an equals sign is checked at once,
after the pending one.
-/

namespace Minicomputer
namespace CommandLine

inductive Stop where
  | helpRequested
  | versionRequested
  | misused (error : UsageError)
  deriving DecidableEq, Repr

/-! ## Kinds of arguments -/

inductive Argument where
  /-- Two hyphens alone. -/
  | separator
  /-- A name, perhaps with a value. -/
  | named (name : String) (value : Option String)
  /-- A name of one letter; whatever follows the letter does not matter. -/
  | letter (letter : Char)
  | plain
  deriving DecidableEq, Repr

namespace Argument

/-- A name and the value behind its equals sign. -/
def splitName (text : List Char) : Argument :=
  let name := String.ofList (text.takeWhile (· ≠ '='))
  match text.dropWhile (· ≠ '=') with
  | [] => .named name none
  | _ :: value => .named name (some (String.ofList value))

/-- What a text looks like as an argument.  A single hyphen is a plain one. -/
def ofChars : List Char → Argument
  | ['-', '-'] => .separator
  | '-' :: '-' :: text => splitName text
  | '-' :: c :: _ => .letter c
  | _ => .plain

end Argument

/-! ## The state of reading -/

/-- What has been read so far: the options, and a parameter whose value has not been checked or even
seen. -/
structure Reading where
  options : Options
  pending : Option (Parameter × Option String)
  /-- The image has been given, though it may be pending. -/
  imageSeen : Bool
  /-- Nothing is a name any more. -/
  separated : Bool
  deriving DecidableEq, Repr

namespace Reading

def start : Reading :=
  ⟨.empty, none, false, false⟩

/-- Checks the pending value. -/
def settle (reading : Reading) : Except Stop Reading :=
  match reading.pending with
  | none => .ok reading
  | some (parameter, none) => .error (.misused (.missingValue parameter.label))
  | some (parameter, some value) =>
    match reading.options.give parameter value with
    | .error e => .error (.misused e)
    | .ok options => .ok { reading with options, pending := none }

/-- Stops with something that is asked for by a switch of its own. -/
def stopWith (reading : Reading) (label : String) (value : Option String) (stop : Stop) :
    Except Stop Reading :=
  match value with
  | some value => .error (.misused (.unexpectedValue value label))
  | none => reading.settle.bind fun _ => .error stop

def acceptSwitch (reading : Reading) (switch : Switch) (value : Option String) :
    Except Stop Reading :=
  match value with
  | some value => .error (.misused (.unexpectedValue value switch.label))
  | none =>
    reading.settle.bind fun reading =>
      match reading.options.turnOn switch with
      | .error e => .error (.misused e)
      | .ok options => .ok { reading with options }

/-- A parameter, whose value is behind the equals sign or still to come. -/
def acceptParameter (reading : Reading) (parameter : Parameter) (value : Option String) :
    Except Stop Reading :=
  reading.settle.bind fun reading =>
    match value with
    | none => .ok { reading with pending := some (parameter, none) }
    | some _ => { reading with pending := some (parameter, value) }.settle

def acceptName (reading : Reading) (name : String) (value : Option String) : Except Stop Reading :=
  match Switch.ofName? name, Parameter.ofName? name with
  | some switch, _ => reading.acceptSwitch switch value
  | none, some parameter => reading.acceptParameter parameter value
  | none, none =>
    if name = "help" then reading.stopWith "--help" value .helpRequested
    else if name = "version" then reading.stopWith "--version" value .versionRequested
    else .error (.misused (.unexpectedArgument ("--" ++ name)))

def acceptLetter (reading : Reading) (letter : Char) : Except Stop Reading :=
  if letter = 'h' then reading.stopWith "--help" none .helpRequested
  else if letter = 'V' then reading.stopWith "--version" none .versionRequested
  else .error (.misused (.unexpectedArgument (String.ofList ['-', letter])))

/-- An argument that no parameter waits for.  There is one place for such an argument. -/
def acceptPlaced (reading : Reading) (text : String) : Except Stop Reading :=
  -- The pending value is not looked at here: there is no place for the argument in any case.
  if reading.imageSeen then .error (.misused (.unexpectedArgument text))
  else
    reading.settle.bind fun reading =>
      .ok { reading with pending := some (.image, some text), imageSeen := true }

def accept (reading : Reading) (text : String) : Except Stop Reading :=
  if reading.separated then reading.acceptPlaced text
  else match Argument.ofChars text.toList with
    -- A parameter that waits for its value will not get it any more.
    | .separator => .ok { reading with separated := true }
    | .named name value => reading.acceptName name value
    | .letter letter => reading.acceptLetter letter
    | .plain =>
      match reading.pending with
      | some (parameter, none) =>
        .ok { reading with pending := some (parameter, some text) }
      | _ => reading.acceptPlaced text

/-- All arguments, up to the first that stops the reading. -/
def acceptAll (reading : Reading) : List String → Except Stop Reading
  | [] => reading.settle
  | text :: texts =>
    match reading.accept text with
    | .error stop => .error stop
    | .ok next => next.acceptAll texts

end Reading

/-- The options that arguments and environment ask for. -/
def readArguments (arguments : List String) (environment : String → Option String) :
    Except Stop Options :=
  match Reading.start.acceptAll arguments with
  | .error stop => .error stop
  | .ok reading =>
    match reading.options.completeFrom environment Parameter.named with
    | .error e => .error (.misused e)
    | .ok options => .ok options

end CommandLine
end Minicomputer
