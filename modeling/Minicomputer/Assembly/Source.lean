import Minicomputer.Assembly.Error
import Minicomputer.Assembly.Line
import Minicomputer.Assembly.SymbolTable
import Minicomputer.Text.Blank
import Minicomputer.Text.Lines

/-!
# Assembly texts

The first of the two passes over an assembly text.  It reads every line and collects

* the statements, in order, each with its line;
* the labels, each at the address of the statement that comes next.

The address of a statement is the number of statements before it, so the labels of a text are known
before any statement is translated, and a label may be used before the line that defines it.
-/

namespace Minicomputer

structure NumberedStatement where
  line : Nat
  statement : Statement
  deriving DecidableEq, Repr

/-- The statements and labels of a text. -/
structure Source where
  statements : Array NumberedStatement
  symbols : SymbolTable

namespace Source

/-- As many statements as there are addresses in an immediate field. -/
def maxStatements : Nat := 0x10000

def empty : Source :=
  ⟨#[], .empty⟩

/-- Records the label of a line.  A name that could be a register is no label. -/
def addLabel (source : Source) (line : Nat) : Option String → Except AssemblyError Source
  | none => .ok source
  | some name =>
    if (Register.number? name.toList).isSome then
      .error ⟨line, .invalidLabel name⟩
    else match source.symbols.define name source.statements.size line with
      | .error firstLine => .error ⟨line, .duplicateLabel name firstLine⟩
      | .ok symbols => .ok { source with symbols }

/-- Records the statement of a line, if there is still an address for it. -/
def addStatement (source : Source) (line : Nat) : Option Statement → Except AssemblyError Source
  | none => .ok source
  | some statement =>
    if source.statements.size = maxStatements then
      .error ⟨line, .programTooLarge⟩
    else .ok { source with statements := source.statements.push ⟨line, statement⟩ }

/-- Records a line: its label first, because a label stands before the statement. -/
def addLine (source : Source) (line : Nat) (text : List Char) : Except AssemblyError Source :=
  match Line.parse text with
  | .error rest => .error ⟨line, .notUnderstood (String.ofList (Text.trimChars rest))⟩
  | .ok parsed => do
    let source ← source.addLabel line parsed.label
    source.addStatement line parsed.statement

/-- The statements and labels of lines, the first of which has the number `line`. -/
def addLines (source : Source) (line : Nat) : List (List Char) → Except AssemblyError Source
  | [] => .ok source
  | text :: texts =>
    match source.addLine line text with
    | .error problem => .error problem
    | .ok source => addLines source (line + 1) texts

/-- The statements and labels of a text, or what is wrong with its first bad line. -/
def read (text : String) : Except AssemblyError Source :=
  addLines empty 1 (Text.lines text.toList)

end Source
end Minicomputer
