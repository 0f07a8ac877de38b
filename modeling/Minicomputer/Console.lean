import Minicomputer.Bridge.Event
import Minicomputer.Console.Number
import Minicomputer.Log
import Minicomputer.Text.Blank
import Minicomputer.Text.Lines
import Minicomputer.Text.Utf8

/-!
# The console

The console is the observer that a person sees.  It prints the values that a program shows, asks for
the values that it waits for, and shows the registers at the end.

What the console says about an event is found first (`Console.respond`), as if everything could be
printed; then it is printed, as far as the output takes it (`Console.handle`).  Nothing is lost by
this order: an answer to a program is given only after everything before it has been printed, so an
output that refuses some of the text also takes back the answer.
-/

namespace Minicomputer

/-! ## Outputs -/

/-- Where text is printed, with everything that has been printed.  There may be room for a limited
number of further bytes only. -/
structure Output where
  written : Array UInt8
  room : Option Nat
  deriving DecidableEq, Repr

namespace Output

def unlimited : Output :=
  ⟨#[], none⟩

def limited (room : Nat) : Output :=
  ⟨#[], some room⟩

/-- Prints as much of the bytes as there is room for, and says whether that was everything. -/
def print (output : Output) (bytes : Bytes) : Bool × Output :=
  match output.room with
  | none => (true, { output with written := output.written ++ bytes })
  | some room =>
    (bytes.length ≤ room, ⟨output.written ++ bytes.take room, some (room - bytes.length)⟩)

def bytes (output : Output) : Bytes :=
  output.written.toList

theorem print_of_room_eq_none {output : Output} (h : output.room = none) (bytes : Bytes) :
    (output.print bytes).1 = true ∧
      (output.print bytes).2.bytes = output.bytes ++ bytes := by
  simp [print, h, Output.bytes]

end Output

namespace Console

/-! ## Wording -/

def promptText : String :=
  "in> "

def complaint : String :=
  "expected a number from 0 to 65535 or -32768 to -1\n"

def registersText (state : MachineState) : String :=
  let registers := state.registers.toList.zipIdx.map fun (value, number) =>
    "r" ++ Text.decimal number ++ "=" ++ Text.decimal value.toNat
  "pc=" ++ Text.prefixedHex 4 state.pc ++ " flags " ++ state.flags.text ++ "\n" ++
    " ".intercalate registers ++ "\n"

/-! ## Responses -/

/-- What the console does about an event, apart from what it prints. -/
inductive Reaction where
  | nothing
  /-- It sends a value to the program. -/
  | reply (value : UInt16)
  /-- There is no more input, so it will send no more values. -/
  | exhausted
  /-- A line of input is not a text. -/
  | unreadable
  deriving DecidableEq, Repr

/-- A reaction, what is printed before it, and the lines of input that are left. -/
structure Response where
  text : String
  reaction : Reaction
  rest : List Bytes
  deriving DecidableEq, Repr

/-- The value on a line of input, if the line is a text at all.  What stands around the number does
not matter. -/
def readLine (line : Bytes) : Option (Option UInt16) :=
  (Text.ofBytes? line).map fun text => wordOf? (Text.trimChars text.toList)

/-- Asks for a value until a line has one. -/
def prompt : List Bytes → Response
  | [] => ⟨promptText, .exhausted, []⟩
  | line :: rest =>
    match readLine line with
    | none => ⟨promptText, .unreadable, rest⟩
    | some (some value) => ⟨promptText, .reply value, rest⟩
    | some none =>
      let later := prompt rest
      { later with text := promptText ++ complaint ++ later.text }

end Console

/-! ## Consoles -/

inductive ConsoleFailure where
  /-- A line of its input is not a text. -/
  | unreadableInput
  /-- Its output does not take what it prints. -/
  | refusedOutput
  deriving DecidableEq, Repr

inductive ConsoleOutcome where
  | closed
  /-- The program waited for a value after the end of the input. -/
  | inputExhausted
  deriving DecidableEq, Repr

/-- What a console still does. -/
inductive ConsolePhase where
  /-- It prints, and answers when the program waits for a value. -/
  | answering
  /-- It prints, but has no more values and no longer asks for them. -/
  | printing
  /-- It has given up. -/
  | failed (reason : ConsoleFailure)
  deriving DecidableEq, Repr

/-- A console: the lines that it has not read yet, and where it prints. -/
structure Console where
  lines : List Bytes
  output : Output
  phase : ConsolePhase
  deriving DecidableEq, Repr

namespace Console

def new (input : Bytes) (output : Output) : Console :=
  ⟨Text.linesAt 10 input, output, .answering⟩

def outcome (console : Console) : Except ConsoleFailure ConsoleOutcome :=
  match console.phase with
  | .answering => .ok .closed
  | .printing => .ok .inputExhausted
  | .failed reason => .error reason

def hasFailed (console : Console) : Bool :=
  match console.phase with
  | .failed _ => true
  | _ => false

/-! ## Events -/

/-- What the console says and does about an event if everything can be printed. -/
def respond (console : Console) : Event → Response
  | .output value => ⟨Text.decimal value.toNat ++ "\n", .nothing, console.lines⟩
  | .snapshot _ => ⟨"", .nothing, console.lines⟩
  | .inputRequested =>
    if console.phase = .answering then prompt console.lines else ⟨"", .nothing, console.lines⟩
  | .halted state =>
    ⟨"Halted after " ++ Text.decimal state.cycles ++ " cycle(s).\n" ++ registersText state,
      .nothing, console.lines⟩
  | .faulted fault state =>
    ⟨"Fault: " ++ fault.message ++ "\n" ++ registersText state, .nothing, console.lines⟩

/-- The console after an event, and the value that it sends, if any. -/
def handle (console : Console) (event : Event) : Option UInt16 × Console :=
  if console.hasFailed then (none, console)
  else
    let response := console.respond event
    let console := { console with lines := response.rest }
    match console.output.print (Text.toBytes response.text) with
    -- What could not be printed came before the reaction, so there is none.
    | (false, output) => (none, { console with output, phase := .failed .refusedOutput })
    | (true, output) =>
      let console := { console with output }
      match response.reaction with
      | .nothing => (none, console)
      | .reply value => (some value, console)
      | .exhausted => (none, { console with phase := .printing })
      | .unreadable => (none, { console with phase := .failed .unreadableInput })

def render (console : Console) : List Event → List UInt16 × Console
  | [] => ([], console)
  | event :: events =>
    let (reply, next) := console.handle event
    let (replies, last) := next.render events
    (reply.toList ++ replies, last)

/-! ## Log -/

/-- What the console logs about an event.  `heard` says whether anybody receives its values. -/
def entries (console : Console) (heard : Bool) (event : Event) : List Log.Entry :=
  match console.phase, event with
  | .failed _, _ => []
  | _, .snapshot state =>
    [⟨.trace, "pc = " ++ Text.prefixedHex 4 state.pc ++ " cycles = " ++
      Text.decimal state.cycles ++ " flags " ++ state.flags.text⟩]
  | .answering, .inputRequested =>
    match console.handle event with
    | (some _, _) => if heard then [] else [⟨.debug, "CPU stopped listening for input"⟩]
    | (none, next) =>
      if next.phase = .printing then
        [⟨.warn, "Input exhausted; further IN instructions read 0"⟩]
      else []
  | _, _ => []

def log (console : Console) (heard : Bool) : List Event → List Log.Entry
  | [] => []
  | event :: events =>
    console.entries heard event ++ (console.handle event).2.log heard events

end Console
end Minicomputer
