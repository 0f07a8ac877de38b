import Minicomputer.Machine.State
import Minicomputer.Machine.Status
import Minicomputer.Text.Numeral
import Minicomputer.Text.Table

/-!
# Core dumps

A core dump is a copy of the machine between two instructions, for inspection after the fact.  It
shows the registers side by side in two columns and the data memory in blocks of eight words.

Blocks that hold nothing but zeros are left out.  The address in front of a block is that of its
first word, so nothing is lost by it: the words that are not shown are zero.
-/

namespace Minicomputer

/-- The machine at one moment.  `instruction` is what the program counter points at, in readable
form, if it points into the program. -/
structure CoreDump where
  status : Status
  state : MachineState
  instruction : Option String
  deriving DecidableEq, Repr

namespace CoreDump

/-! ## Registers -/

def valueText (value : UInt16) : String :=
  Text.prefixedHex 4 value.toNat ++ " " ++
    String.ofList ((Nat.toDigits 10 value.toNat).leftpad 5 ' ')

def registerTable (state : MachineState) (registers : List Register) : Text.Table where
  titles := some [.right "Register", .left "Contents"]
  rows := registers.map fun register =>
    [.right (register.name ++ " ="), .left (valueText (state.register register))]

def lowRegisters : List Register :=
  (List.range 8).map .ofField

def highRegisters : List Register :=
  (List.range 8).map fun offset => .ofField (8 + offset)

/-- Both columns, as the two cells of a table with one row. -/
def registersTable (state : MachineState) : Text.Table where
  titles := none
  rows :=
    [[.left (registerTable state lowRegisters).render,
      .left (registerTable state highRegisters).render]]

/-! ## Memory -/

def blockWords : Nat := 8

/-- The blocks of a memory, each with the address of its first word.  The last block may be
shorter. -/
def blocks (memory : Array UInt16) : List (Nat × List UInt16) :=
  (List.range ((memory.size + (blockWords - 1)) / blockWords)).map fun row =>
    let start := row * blockWords
    (start, (memory.extract start (start + blockWords)).toList)

/-- The blocks that are shown: those with a word that is not zero. -/
def touchedBlocks (memory : Array UInt16) : List (Nat × List UInt16) :=
  (blocks memory).filter fun (_, words) => words.any (· != 0)

def blockTexts (block : Nat × List UInt16) : String × List String :=
  (Text.prefixedHex 4 block.1, block.2.map fun word => Text.hexadecimal 4 word.toNat)

/-- The rows of the memory table, as texts.  A memory of zeros has a row that says so. -/
def memoryRows (memory : Array UInt16) : List (String × List String) :=
  match touchedBlocks memory with
  | [] => [("*", ["all zero"])]
  | touched => touched.map blockTexts

def memoryTable (memory : Array UInt16) : Text.Table where
  titles := some (.right "Address" ::
    (List.range blockWords).map fun offset => .left ("+" ++ Text.decimal offset))
  rows := (memoryRows memory).map fun (address, words) => .right address :: words.map .left

/-! ## The whole dump -/

def text (dump : CoreDump) : String :=
  "Core dump: " ++ dump.status.text ++ ", pc = " ++ Text.prefixedHex 4 dump.state.pc ++ " (" ++
    dump.instruction.getD "outside program" ++ "), " ++ Text.decimal dump.state.cycles ++
    " cycle(s), flags " ++ dump.state.flags.text ++ "\n" ++
    (registersTable dump.state).render ++ "\n" ++
    "Memory (" ++ Text.decimal dump.state.memory.size ++ " words):\n" ++
    (memoryTable dump.state.memory).render

end CoreDump
end Minicomputer
