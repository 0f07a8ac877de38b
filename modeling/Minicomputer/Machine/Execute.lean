import Minicomputer.Instruction
import Minicomputer.Machine.State
import Minicomputer.Machine.Status
import Minicomputer.Operation

/-!
# What the operations do

`Machine.execute` says what an operation does to a state.  Most operations change registers or flags
and say where execution goes on.  The others leave the rest to the processor that executes them:
`ST` changes its memory, `HLT` stops it, and `IN` and `OUT` need somebody to talk to.

Arithmetic is that of natural numbers, and a result is what fits in sixteen bits of it, together
with a carry that says what did not.
-/

namespace Minicomputer
namespace Machine

/-! ## Arithmetic -/

/-- The low sixteen bits of a sum or product, and whether there are others. -/
def truncated (value : Nat) : UInt16 × Bool :=
  (UInt16.ofNat value, 0x10000 ≤ value)

/-- A difference modulo 2^16, and whether it had to borrow. -/
def difference (a b : UInt16) : UInt16 × Bool :=
  (a - b, a.toNat < b.toNat)

/-- A left shift; the carry is the last bit shifted out past bit 15. -/
def shiftLeft (value amount : UInt16) : UInt16 × Bool :=
  let shifted := value.toNat <<< amount.toNat
  (UInt16.ofNat shifted, shifted / 0x10000 % 2 == 1)

/-- A right shift; the carry is the last bit shifted out past bit 0.  A shift by nothing shifts no
bit out. -/
def shiftRight (value amount : UInt16) : UInt16 × Bool :=
  if amount = 0 then (value, false)
  else
    (UInt16.ofNat (value.toNat >>> amount.toNat),
      (value.toNat >>> (amount.toNat - 1)) % 2 == 1)

/-! ## Memory -/

/-- The memory word at `base + offset`, if there is one. -/
def effectiveAddress (state : MachineState) (base : UInt16) (offset : Int) :
    Except Fault (Fin state.memory.size) :=
  let address := (base.toNat : Int) + offset
  if h : 0 ≤ address ∧ address.toNat < state.memory.size then
    .ok ⟨address.toNat, h.2⟩
  else
    .error (.memoryOutOfRange state.pc address)

/-! ## Operations -/

/-- What an operation asks for when it does not fault, on a machine with that many words of
memory. -/
inductive Effect (memoryWords : Nat) where
  /-- The instruction is completed in this state, and execution goes on at `target`. -/
  | proceed (state : MachineState) (target : Nat)
  /-- The value is to be stored, and execution goes on with the next instruction. -/
  | store (address : Fin memoryWords) (value : UInt16)
  /-- The instruction is completed and execution ends. -/
  | halt
  /-- The value is to be shown, and execution goes on with the next instruction. -/
  | output (value : UInt16)
  /-- A value is to be read into the register, and execution goes on with the next instruction. -/
  | input (dest : Register)

/-- What an operation with the fields of an instruction does in a state.  Addresses that jumps go to
are not checked: a program counter outside the program ends execution. -/
def execute (operation : Operation) (instruction : Instruction) (state : MachineState) :
    Except Fault (Effect state.memory.size) :=
  let dest := instruction.dest
  let rd := state.register instruction.dest
  let rs := state.register instruction.src
  let target := instruction.immediate.toNat
  let next := state.pc + 1
  let result (value : UInt16 × Bool) : Except Fault (Effect state.memory.size) :=
    .ok (.proceed (state.writeResult dest value) next)
  let jumpIf (condition : Bool) : Except Fault (Effect state.memory.size) :=
    .ok (.proceed state (if condition then target else next))
  match operation with
  | .nop => .ok (.proceed state next)
  | .hlt => .ok .halt
  -- Data movement leaves the flags alone.
  | .mov => .ok (.proceed (state.setRegister dest rs) next)
  | .ldi => .ok (.proceed (state.setRegister dest instruction.immediate) next)
  | .ld =>
    match effectiveAddress state rs instruction.signedImmediate with
    | .error fault => .error fault
    | .ok address => .ok (.proceed (state.setRegister dest state.memory[address]) next)
  | .st =>
    match effectiveAddress state rd instruction.signedImmediate with
    | .error fault => .error fault
    | .ok address => .ok (.store address rs)
  | .add => result (truncated (rd.toNat + rs.toNat))
  -- The immediate is added as its bit pattern, so the carry is that of the adder.
  | .addi => result (truncated (rd.toNat + instruction.immediate.toNat))
  | .sub => result (difference rd rs)
  | .mul => result (truncated (rd.toNat * rs.toNat))
  | .div => if rs = 0 then .error (.divideByZero state.pc) else result (rd / rs, false)
  | .mod => if rs = 0 then .error (.divideByZero state.pc) else result (rd % rs, false)
  | .and => result (rd &&& rs, false)
  | .or => result (rd ||| rs, false)
  | .xor => result (rd ^^^ rs, false)
  | .not => result (~~~rd, false)
  | .shl => result (shiftLeft rd instruction.immediate)
  | .shr => result (shiftRight rd instruction.immediate)
  | .cmp =>
    let (value, borrow) := difference rd rs
    .ok (.proceed (state.setFlags value borrow) next)
  | .jmp => .ok (.proceed state target)
  | .jz => jumpIf state.flags.zero
  | .jnz => jumpIf !state.flags.zero
  | .jc => jumpIf state.flags.carry
  | .jnc => jumpIf !state.flags.carry
  -- A return address has sixteen bits like every other address.
  | .call =>
    if next < 0x10000 then
      .ok (.proceed (state.setRegister Register.link (UInt16.ofNat next)) target)
    else .error (.returnAddressOutOfRange state.pc)
  | .ret => .ok (.proceed state (state.register Register.link).toNat)
  | .input => .ok (.input dest)
  | .output => .ok (.output rd)

end Machine
end Minicomputer
