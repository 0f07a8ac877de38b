import Minicomputer.Operation
import Minicomputer.Text.Blank
import Minicomputer.Text.Numeral

/-!
# The table of instructions

An `Architecture` says which of the processor's operations a machine offers, under which name, and
in which order they are listed.  The assembler and the processor look instructions up in the same
table, so there is one place where an instruction set is defined.

A table is built from definitions that somebody wrote down, one at a time, and each is checked
against the table so far (`Architecture.check`).  What a definition repeats of the processor --
opcode and operands -- is compared and then dropped: an entry keeps the operation, and
`Spec.mnemonic`, `Spec.opcode` and `Spec.operands` are those of the operation.  That no operation
is listed twice is part of the type; with it, mnemonics and opcodes are keys.
-/

namespace Minicomputer

/-! ## Definitions -/

/-- One record of what an instruction set is said to contain. -/
structure Definition where
  mnemonic : String
  opcode : UInt8
  operands : List OperandKind
  name : String
  description : String
  deriving DecidableEq, Repr

namespace Definition

/-- At most two registers and one immediate fit in an instruction word. -/
def FitsWord (definition : Definition) : Prop :=
  definition.operands.countP (· == .register) ≤ 2 ∧
    definition.operands.countP (· != .register) ≤ 1

instance (definition : Definition) : Decidable definition.FitsWord :=
  inferInstanceAs (Decidable (_ ∧ _))

end Definition

/-- The parts of a definition that must not be blank. -/
inductive RequiredField where
  | mnemonic
  | name
  deriving DecidableEq, Repr

namespace RequiredField

def text : RequiredField → String
  | mnemonic => "mnemonic"
  | name => "name"

end RequiredField

/-- Why a definition cannot be added to a table. -/
inductive ArchitectureError where
  | duplicateOpcode (opcode : UInt8) (first second : String)
  | duplicateMnemonic (mnemonic : String)
  | missingField (opcode : UInt8) (field : RequiredField)
  | unknownOperation (mnemonic : String)
  | operandLayout (mnemonic : String) (opcode : UInt8)
  | opcodeMismatch (mnemonic : String) (declared expected : UInt8)
  | operandMismatch (mnemonic : String) (declared expected : List OperandKind)
  deriving DecidableEq, Repr

namespace ArchitectureError

private def opcodeText (opcode : UInt8) : String :=
  Text.prefixedHex 2 opcode.toNat

private def kindsText (kinds : List OperandKind) : String :=
  "[" ++ ", ".intercalate (kinds.map OperandKind.name) ++ "]"

def message : ArchitectureError → String
  | duplicateOpcode opcode first second =>
    "opcode " ++ opcodeText opcode ++ " is defined by both " ++ first ++ " and " ++ second
  | duplicateMnemonic mnemonic => "mnemonic " ++ mnemonic ++ " is defined twice"
  | missingField opcode field =>
    "definition for opcode " ++ opcodeText opcode ++ " is missing its " ++ field.text
  | unknownOperation mnemonic =>
    "mnemonic " ++ mnemonic ++ " has no operation the CPU can execute"
  | operandLayout mnemonic opcode =>
    "operands of " ++ mnemonic ++ " (" ++ opcodeText opcode ++
      ") do not fit in one instruction word"
  | opcodeMismatch mnemonic declared expected =>
    mnemonic ++ " is declared with opcode " ++ opcodeText declared ++ " but executes as " ++
      opcodeText expected
  | operandMismatch mnemonic declared expected =>
    mnemonic ++ " is declared with operands " ++ kindsText declared ++ " but the CPU reads " ++
      kindsText expected

end ArchitectureError

/-! ## Entries -/

/-- An entry of the table: an operation, and how it is presented. -/
structure Spec where
  operation : Operation
  name : String
  description : String
  deriving DecidableEq, Repr

namespace Spec

def mnemonic (spec : Spec) : String :=
  spec.operation.mnemonic

def opcode (spec : Spec) : UInt8 :=
  spec.operation.code

def operands (spec : Spec) : List OperandKind :=
  spec.operation.operands

def arity (spec : Spec) : Nat :=
  spec.operands.length

end Spec

/-! ## Tables -/

/-- The form in which mnemonics are compared: without surrounding blanks, in ASCII upper case. -/
def normalizeMnemonic (mnemonic : String) : String :=
  String.ofList ((Text.trimChars mnemonic.toList).map Char.toUpper)

/-- A table of instructions: entries in the order they are listed, no operation twice. -/
structure Architecture where
  specs : List Spec
  nodup : (specs.map Spec.operation).Nodup

namespace Architecture

def empty : Architecture :=
  ⟨[], List.nodup_nil⟩

def lookupOpcode (architecture : Architecture) (opcode : UInt8) : Option Spec :=
  architecture.specs.find? fun spec => spec.opcode == opcode

/-- The entry with that mnemonic, whatever its case. -/
def lookupMnemonic (architecture : Architecture) (mnemonic : String) : Option Spec :=
  architecture.specs.find? fun spec => spec.mnemonic == normalizeMnemonic mnemonic

def operation? (architecture : Architecture) (opcode : UInt8) : Option Operation :=
  (architecture.lookupOpcode opcode).map Spec.operation

/-! ## Building a table -/

/-- Checks a definition against the table so far.  Every check has its own complaint, and the first
that fails is reported: something must be written for mnemonic and name, mnemonic and opcode must be
new, the operands must fit in a word, and the processor must have an operation of that mnemonic with
that opcode and those operands. -/
def check (architecture : Architecture) (definition : Definition) :
    Except ArchitectureError
      { spec : Spec // spec.operation ∉ architecture.specs.map Spec.operation } :=
  let mnemonic := normalizeMnemonic definition.mnemonic
  if mnemonic = "" then
    .error (.missingField definition.opcode .mnemonic)
  else if Text.trim definition.name = "" then
    .error (.missingField definition.opcode .name)
  else if fresh : ∃ spec ∈ architecture.specs, spec.mnemonic = mnemonic then
    .error (.duplicateMnemonic mnemonic)
  else match architecture.lookupOpcode definition.opcode with
    | some first => .error (.duplicateOpcode definition.opcode first.mnemonic mnemonic)
    | none =>
      if ¬ definition.FitsWord then
        .error (.operandLayout mnemonic definition.opcode)
      else match known : Operation.ofMnemonic? mnemonic with
        | none => .error (.unknownOperation mnemonic)
        | some operation =>
          if definition.opcode ≠ operation.code then
            .error (.opcodeMismatch mnemonic definition.opcode operation.code)
          else if definition.operands ≠ operation.operands then
            .error (.operandMismatch mnemonic definition.operands operation.operands)
          else
            .ok ⟨⟨operation, definition.name, definition.description⟩, by
              intro member
              obtain ⟨spec, listed, same⟩ := List.mem_map.mp member
              refine fresh ⟨spec, listed, ?_⟩
              rw [Spec.mnemonic, same]
              exact Operation.ofMnemonic?_eq_some_iff.mp known⟩

def insert (architecture : Architecture) (spec : Spec)
    (fresh : spec.operation ∉ architecture.specs.map Spec.operation) : Architecture where
  specs := architecture.specs ++ [spec]
  nodup := by
    rw [List.map_append, List.nodup_append]
    refine ⟨architecture.nodup, by simp, ?_⟩
    intro a ha b hb
    rw [List.map_singleton, List.mem_singleton] at hb
    subst hb
    intro same
    subst same
    exact fresh ha

/-- The table with one more definition, if it is admitted. -/
def add (architecture : Architecture) (definition : Definition) :
    Except ArchitectureError Architecture :=
  match architecture.check definition with
  | .error problem => .error problem
  | .ok ⟨spec, fresh⟩ => .ok (architecture.insert spec fresh)

/-- The table of a list of definitions, or what is wrong with the first one that is not admitted. -/
def ofDefinitions (definitions : List Definition) : Except ArchitectureError Architecture :=
  definitions.foldlM add empty

end Architecture
end Minicomputer
