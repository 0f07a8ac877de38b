import Minicomputer.Architecture
import Minicomputer.Instruction
import Minicomputer.Text.Table

/-!
# Instruction sets and instructions as text

* `Architecture.disassemble` writes one instruction the way the assembler reads it, from the table
  and the fields of the instruction alone;
* `Architecture.listing` shows the whole table.

An opcode that is not in the table is disassembled to its raw word, which the assembler does not
read back.
-/

namespace Minicomputer
namespace Architecture

/-! ## Disassembly -/

/-- The operands of an instruction in the order of assembly.  `registers` are the register fields
that have not been written yet; register operands take them in turn. -/
def operandTexts (instruction : Instruction) (registers : List Register) :
    List OperandKind → List String
  | [] => []
  | .register :: kinds =>
    (registers.headD .first).name :: operandTexts instruction registers.tail kinds
  | .unsigned :: kinds =>
    Text.decimal instruction.immediate.toNat :: operandTexts instruction registers kinds
  | .signed :: kinds =>
    Text.signedDecimal instruction.signedImmediate :: operandTexts instruction registers kinds
  | .address :: kinds =>
    Text.prefixedHex 4 instruction.immediate.toNat :: operandTexts instruction registers kinds

/-- An instruction of that entry: its mnemonic in a column of four, then its operands. -/
def instructionText (spec : Spec) (instruction : Instruction) : String :=
  match operandTexts instruction [instruction.dest, instruction.src] spec.operands with
  | [] => spec.mnemonic
  | operands =>
    String.ofList (spec.mnemonic.toList.rightpad 4 ' ') ++ " " ++ ", ".intercalate operands

/-- An instruction in readable form, such as `LDI  r1, 42` or `JNZ  0x0003`. -/
def disassemble (architecture : Architecture) (instruction : Instruction) : String :=
  match architecture.lookupOpcode instruction.opcode with
  | some spec => instructionText spec instruction
  | none =>
    "???  " ++ Text.prefixedHex 8 instruction.encode.toNat ++ " (unknown opcode " ++
      Text.prefixedHex 2 instruction.opcode.toNat ++ ")"

/-! ## The listing -/

def listingRow (spec : Spec) : List Text.Cell :=
  [ .left spec.mnemonic,
    .right (Text.prefixedHex 2 spec.opcode.toNat),
    .left (", ".intercalate (spec.operands.map OperandKind.abbreviation)),
    .left spec.name,
    .left spec.description ]

def listing (architecture : Architecture) : String :=
  let table : Text.Table :=
    { titles := some
        [.left "Mnemonic", .right "Opcode", .left "Operands", .left "Name", .left "Description"]
      rows := architecture.specs.map listingRow }
  "Instructions:\n\n" ++ table.render

end Architecture
end Minicomputer
