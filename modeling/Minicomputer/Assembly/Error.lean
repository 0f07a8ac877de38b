import Minicomputer.Operation
import Minicomputer.Text.Numeral

/-!
# Why a text does not assemble

A problem is the cause, an error the cause together with the line it was found on.  Lines are
counted from 1.
-/

namespace Minicomputer

inductive AssemblyProblem where
  | unknownMnemonic (mnemonic : String)
  | wrongOperandCount (mnemonic : String) (expected found : Nat)
  | wrongOperandKind (mnemonic : String) (position : Nat) (expected : OperandKind)
  | registerOutOfRange (number : Nat)
  | immediateOutOfRange (kind : OperandKind) (value : Int)
  | undefinedLabel (name : String)
  | duplicateLabel (name : String) (firstLine : Nat)
  | invalidLabel (name : String)
  | programTooLarge
  | notUnderstood (rest : String)
  deriving DecidableEq, Repr

namespace AssemblyProblem

def message : AssemblyProblem → String
  | unknownMnemonic mnemonic => "unknown mnemonic `" ++ mnemonic ++ "`"
  | wrongOperandCount mnemonic expected found =>
    mnemonic ++ " takes " ++ Text.decimal expected ++ " operand(s) but was given " ++
      Text.decimal found
  | wrongOperandKind mnemonic position expected =>
    "operand " ++ Text.decimal position ++ " of " ++ mnemonic ++ " must be a " ++ expected.text
  | registerOutOfRange number =>
    "register r" ++ Text.decimal number ++ " does not exist (registers are r0 to r15)"
  | immediateOutOfRange kind value =>
    kind.text ++ " " ++ Text.signedDecimal value ++ " is out of range " ++
      Text.signedDecimal kind.least ++ "..=" ++ Text.signedDecimal kind.greatest
  | undefinedLabel name => "undefined label `" ++ name ++ "`"
  | duplicateLabel name firstLine =>
    "label `" ++ name ++ "` is already defined on line " ++ Text.decimal firstLine
  | invalidLabel name => "`" ++ name ++ "` names a register and cannot be used as a label"
  | programTooLarge => "program does not fit in a 16 bit address space"
  | notUnderstood rest => "syntax error near `" ++ rest ++ "`"

end AssemblyProblem

/-- A problem and the line it was found on. -/
structure AssemblyError where
  line : Nat
  problem : AssemblyProblem
  deriving DecidableEq, Repr

namespace AssemblyError

/-- The line, then the wording of the complaint. -/
def message (error : AssemblyError) : String :=
  "line " ++ Text.decimal error.line ++ ": " ++ error.problem.message

end AssemblyError
end Minicomputer
