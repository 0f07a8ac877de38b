import Minicomputer.Architecture.Listing
import Minicomputer.Assembly.Source
import Minicomputer.Log
import Minicomputer.Program

/-!
# The assembler

The second pass: `Source.read` has found the statements and labels of a text, and here every
statement becomes an instruction of a given table.  A statement can be encoded when its mnemonic is
in the table, it has as many operands as the entry asks for, and every operand suits the kind that
is asked for in its place; a label stands for its address.

* `Assembler.encode` -- one statement;
* `Assembler.assemble` -- a text, to a program and what there is to say about it.
-/

namespace Minicomputer

/-! ## What there is to say about an assembled text -/

/-- Something that is probably a mistake, though the text assembles. -/
inductive AssemblyWarning where
  | emptyProgram
  | noHalt
  | unusedLabel (name : String) (line : Nat)
  deriving DecidableEq, Repr

namespace AssemblyWarning

def message : AssemblyWarning → String
  | emptyProgram => "program is empty"
  | noHalt => "program has no HLT; it stops when execution runs off its end"
  | unusedLabel name line =>
    "label `" ++ name ++ "` on line " ++ Text.decimal line ++ " is never referenced"

end AssemblyWarning

structure AssemblySummary where
  instructions : Nat
  labels : Nat
  warnings : List AssemblyWarning
  deriving DecidableEq, Repr

namespace AssemblySummary

/-- A line of numbers, then a line for every warning. -/
def text (summary : AssemblySummary) : String :=
  "Assembled " ++ Text.decimal summary.instructions ++ " instruction(s) (" ++
    Text.decimal (4 * summary.instructions) ++ " bytes), " ++
    Text.decimal summary.labels ++ " label(s), " ++
    Text.decimal summary.warnings.length ++ " warning(s)\n" ++
    String.join (summary.warnings.map fun warning => "  warning: " ++ warning.message ++ "\n")

end AssemblySummary

namespace Assembler

/-! ## Operands -/

/-- What an operand puts into the instruction word. -/
inductive Field where
  | register (register : Register)
  | immediate (value : UInt16)
  deriving DecidableEq, Repr

/-- The low sixteen bits of a number, in two's complement if it is negative. -/
def immediateOf (value : Int) : UInt16 :=
  UInt16.ofNat (value % 0x10000).toNat

/-- What an operand puts into the word in a place that asks for `kind`.  The place, which counts
from 1, and the mnemonic are for the complaint. -/
def field (symbols : SymbolTable) (mnemonic : String) (position : Nat) :
    OperandKind → Operand → Except AssemblyProblem Field
  | .register, .register number =>
    match Register.ofNumber? number with
    | some register => .ok (.register register)
    | none => .error (.registerOutOfRange number)
  | .address, .label name =>
    match symbols.address? name with
    | some address => .ok (.immediate (UInt16.ofNat address))
    | none => .error (.undefinedLabel name)
  | .register, _ => .error (.wrongOperandKind mnemonic position .register)
  | kind, .register _ => .error (.wrongOperandKind mnemonic position kind)
  | kind, .label _ => .error (.wrongOperandKind mnemonic position kind)
  | kind, .number value =>
    if kind.Admits value then .ok (.immediate (immediateOf value))
    else .error (.immediateOutOfRange kind value)

/-- What all operands of a statement put into the word, or the complaint about the first that does
not suit. -/
def fields (symbols : SymbolTable) (mnemonic : String) (position : Nat) :
    List OperandKind → List Operand → Except AssemblyProblem (List Field)
  | kind :: kinds, operand :: operands => do
    let first ← field symbols mnemonic position kind operand
    let rest ← fields symbols mnemonic (position + 1) kinds operands
    return first :: rest
  | _, _ => .ok []

/-- The instruction with those fields: the first register is `dest`, the second `src`. -/
def instructionOf (opcode : UInt8) (fields : List Field) : Instruction :=
  let registers := fields.filterMap fun
    | .register register => some register
    | .immediate _ => none
  let immediates := fields.filterMap fun
    | .register _ => none
    | .immediate value => some value
  ⟨opcode, registers[0]?.getD .first, registers[1]?.getD .first, immediates.head?.getD 0⟩

/-! ## Statements -/

/-- The instruction of a statement, or the first thing that is wrong with it. -/
def encodeStatement (architecture : Architecture) (symbols : SymbolTable) (statement : Statement) :
    Except AssemblyProblem Instruction :=
  match architecture.lookupMnemonic statement.mnemonic with
  | none => .error (.unknownMnemonic statement.mnemonic)
  | some spec =>
    if statement.operands.length ≠ spec.arity then
      .error (.wrongOperandCount spec.mnemonic spec.arity statement.operands.length)
    else
      (fields symbols spec.mnemonic 1 spec.operands statement.operands).map
        (instructionOf spec.opcode)

def encode (architecture : Architecture) (symbols : SymbolTable) (numbered : NumberedStatement) :
    Except AssemblyError Instruction :=
  match encodeStatement architecture symbols numbered.statement with
  | .error problem => .error ⟨numbered.line, problem⟩
  | .ok instruction => .ok instruction

/-! ## Summaries -/

def labelsUsed (statement : Statement) : List String :=
  statement.operands.filterMap fun
    | .label name => some name
    | _ => none

def resolvedSymbols (source : Source) : SymbolTable :=
  source.statements.foldl
    (fun symbols numbered => (labelsUsed numbered.statement).foldl
      (fun symbols name => (symbols.resolve name).2) symbols)
    source.symbols

def halts (architecture : Architecture) (program : Program) : Bool :=
  program.any fun instruction => architecture.operation? instruction.opcode == some .hlt

def summarize (architecture : Architecture) (source : Source) (program : Program) :
    AssemblySummary where
  instructions := program.size
  labels := source.symbols.size
  warnings :=
    (if program.isEmpty then [.emptyProgram]
      else if halts architecture program then []
      else [.noHalt]) ++
    (resolvedSymbols source).unreferenced.map fun (name, symbol) => .unusedLabel name symbol.line

/-! ## Texts -/

/-- The program of an assembly text and what there is to say about it. -/
def assemble (architecture : Architecture) (text : String) :
    Except AssemblyError (Program × AssemblySummary) := do
  let source ← Source.read text
  let instructions ← source.statements.toList.mapM (encode architecture source.symbols)
  let program := instructions.toArray
  return (program, summarize architecture source program)

/-! ## The log -/

def encodedEntry (architecture : Architecture) (line address : Nat) (instruction : Instruction) :
    Log.Entry :=
  let lineText := String.ofList ((Nat.toDigits 10 line).leftpad 4 ' ')
  ⟨.debug, lineText ++ ": " ++ Text.prefixedHex 4 address ++ "  " ++
    Text.prefixedHex 8 instruction.encode.toNat ++ "  " ++ architecture.disassemble instruction⟩

/-- The entries of statements from `address` on, up to the first that cannot be encoded. -/
def encodedEntries (architecture : Architecture) (symbols : SymbolTable) (address : Nat)
    (entries : Array Log.Entry) : List NumberedStatement → Array Log.Entry
  | [] => entries
  | numbered :: rest =>
    match encode architecture symbols numbered with
    | .error _ => entries
    | .ok instruction =>
      encodedEntries architecture symbols (address + 1)
        (entries.push (encodedEntry architecture numbered.line address instruction)) rest

/-- What assembling a text logs: every encoded statement, and at the end the warnings. -/
def log (architecture : Architecture) (text : String) : List Log.Entry :=
  match Source.read text with
  | .error _ => []
  | .ok source =>
    let encoded :=
      (encodedEntries architecture source.symbols 0 #[] source.statements.toList).toList
    match assemble architecture text with
    | .error _ => encoded
    | .ok (_, summary) =>
      encoded ++ summary.warnings.map fun warning => ⟨.warn, warning.message⟩

end Assembler
end Minicomputer
