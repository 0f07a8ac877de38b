/-!
# Operations

What the processor can do, apart from how a table of instructions presents it: twenty-eight
operations, each with the opcode it executes at, its mnemonic, and the operands it reads.

Opcodes are grouped by their high digit:

```text
0x0_  machine control      0x4_  comparison
0x1_  data movement        0x5_  control flow
0x2_  arithmetic           0x6_  peripherals
0x3_  logic and shifts
```

The meaning of an operation is in `Minicomputer.Machine.Execute`.
-/

namespace Minicomputer

/-! ## Operands -/

/-- The kind of an operand decides how it is written in assembly and which field of the instruction
word it goes to.  The first register goes to `dest`, the second to `src`, and everything else to
`immediate`. -/
inductive OperandKind where
  | register
  | unsigned
  | signed
  | address
  deriving DecidableEq, Repr

namespace OperandKind

def text : OperandKind → String
  | register => "register"
  | unsigned => "unsigned immediate"
  | signed => "signed immediate"
  | address => "address"

def abbreviation : OperandKind → String
  | register => "reg"
  | unsigned => "imm"
  | signed => "simm"
  | address => "addr"

def name : OperandKind → String
  | register => "Register"
  | unsigned => "Unsigned"
  | signed => "Signed"
  | address => "Address"

def least : OperandKind → Int
  | register | unsigned | address => 0
  | signed => -0x8000

def greatest : OperandKind → Int
  | register => 15
  | unsigned | address => 0xFFFF
  | signed => 0x7FFF

def Admits (kind : OperandKind) (value : Int) : Prop :=
  kind.least ≤ value ∧ value ≤ kind.greatest

instance (kind : OperandKind) (value : Int) : Decidable (kind.Admits value) :=
  inferInstanceAs (Decidable (_ ∧ _))

end OperandKind

/-! ## The operations -/

/-- What the processor knows how to execute. -/
inductive Operation where
  | nop
  | hlt
  | mov
  | ldi
  | ld
  | st
  | add
  | addi
  | sub
  | mul
  | div
  | mod
  | and
  | or
  | xor
  | not
  | shl
  | shr
  | cmp
  | jmp
  | jz
  | jnz
  | jc
  | jnc
  | call
  | ret
  | input
  | output
  deriving DecidableEq, Repr

namespace Operation

def all : List Operation :=
  [nop, hlt, mov, ldi, ld, st, add, addi, sub, mul, div, mod, and, or, xor, not, shl, shr, cmp,
    jmp, jz, jnz, jc, jnc, call, ret, input, output]

def code : Operation → UInt8
  | nop => 0x00
  | hlt => 0x01
  | mov => 0x10
  | ldi => 0x11
  | ld => 0x12
  | st => 0x13
  | add => 0x20
  | addi => 0x21
  | sub => 0x22
  | mul => 0x23
  | div => 0x24
  | mod => 0x25
  | and => 0x30
  | or => 0x31
  | xor => 0x32
  | not => 0x33
  | shl => 0x34
  | shr => 0x35
  | cmp => 0x40
  | jmp => 0x50
  | jz => 0x51
  | jnz => 0x52
  | jc => 0x53
  | jnc => 0x54
  | call => 0x58
  | ret => 0x59
  | input => 0x60
  | output => 0x61

/-- The mnemonic, in the upper case that tables and disassembly use. -/
def mnemonic : Operation → String
  | nop => "NOP"
  | hlt => "HLT"
  | mov => "MOV"
  | ldi => "LDI"
  | ld => "LD"
  | st => "ST"
  | add => "ADD"
  | addi => "ADDI"
  | sub => "SUB"
  | mul => "MUL"
  | div => "DIV"
  | mod => "MOD"
  | and => "AND"
  | or => "OR"
  | xor => "XOR"
  | not => "NOT"
  | shl => "SHL"
  | shr => "SHR"
  | cmp => "CMP"
  | jmp => "JMP"
  | jz => "JZ"
  | jnz => "JNZ"
  | jc => "JC"
  | jnc => "JNC"
  | call => "CALL"
  | ret => "RET"
  | input => "IN"
  | output => "OUT"

/-- The operands that the processor reads, in the order of assembly. -/
def operands : Operation → List OperandKind
  | nop | hlt | ret => []
  | ld | st => [.register, .register, .signed]
  | ldi | shl | shr => [.register, .unsigned]
  | addi => [.register, .signed]
  | mov | add | sub | mul | div | mod | and | or | xor | cmp => [.register, .register]
  | not | input | output => [.register]
  | jmp | jz | jnz | jc | jnc | call => [.address]

/-- Whether the immediate field is read as a two's complement number. -/
def hasSignedImmediate : Operation → Bool
  | addi | ld | st => true
  | _ => false

def ofMnemonic? (mnemonic : String) : Option Operation :=
  all.find? fun operation => operation.mnemonic == mnemonic

/-! ## The enumeration is complete and its columns are keys -/

theorem mem_all (operation : Operation) : operation ∈ all := by
  cases operation <;> decide

theorem code_injective {a b : Operation} (h : a.code = b.code) : a = b := by
  have table : ∀ x ∈ all, ∀ y ∈ all, x.code = y.code → x = y := by decide
  exact table a (mem_all a) b (mem_all b) h

theorem mnemonic_injective {a b : Operation} (h : a.mnemonic = b.mnemonic) : a = b := by
  have table : ∀ x ∈ all, ∀ y ∈ all, x.mnemonic = y.mnemonic → x = y := by decide
  exact table a (mem_all a) b (mem_all b) h

theorem ofMnemonic?_eq_some_iff {mnemonic : String} {operation : Operation} :
    ofMnemonic? mnemonic = some operation ↔ operation.mnemonic = mnemonic := by
  constructor
  · intro found
    simpa using List.find?_some found
  · intro spelled
    subst spelled
    cases operation <;> decide

end Operation
end Minicomputer
