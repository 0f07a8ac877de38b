import Minicomputer.Assembly.Line
import Minicomputer.Proofs.Machine.Core

/-!
# Running statements

An interpreter of statements as they were read.  It runs the statement at the index that the program
counter gives, with registers and numbers as they were written and with labels as indices of
statements.  It has no table of instructions and no instruction words, so nothing is packed into
fields here: a number keeps its value, however large, and its sign.

Registers, memory, flags and the arithmetic of sixteen bits are those of the machine.

A statement that nobody could have assembled -- an unknown mnemonic, operands that do not suit it, a
label that is not defined -- has no meaning, and then there is no next state.
-/

namespace Minicomputer
namespace Interpreter

/-! ## Operands -/

/-- The operation of that name, whatever its case. -/
def operation? (mnemonic : String) : Option Operation :=
  Operation.all.find? fun operation =>
    operation.mnemonic.toList.map Char.toUpper == mnemonic.toList.map Char.toUpper

def register? : Operand → Option Register
  | .register number => Register.ofNumber? number
  | _ => none

def literal? : Operand → Option Int
  | .number value => some value
  | _ => none

/-- The index of the statement that an operand leads to. -/
def target? (address? : String → Option Nat) : Operand → Option Nat
  | .number value => some value.toNat
  | .label name => address? name
  | .register _ => none

def noOperand (core : Core) : List Operand → Option Core
  | [] => some core
  | _ => none

def oneRegister (core : Register → Core) : List Operand → Option Core
  | [d] => (register? d).map core
  | _ => none

def twoRegisters (core : Register → Register → Core) : List Operand → Option Core
  | [d, s] => do
    let rd ← register? d
    let rs ← register? s
    return core rd rs
  | _ => none

def registerLiteral (core : Register → Int → Core) : List Operand → Option Core
  | [d, n] => do
    let rd ← register? d
    let value ← literal? n
    return core rd value
  | _ => none

def registersLiteral (core : Register → Register → Int → Core) : List Operand → Option Core
  | [d, s, n] => do
    let rd ← register? d
    let rs ← register? s
    let value ← literal? n
    return core rd rs value
  | _ => none

def oneTarget (address? : String → Option Nat) (core : Nat → Core) : List Operand → Option Core
  | [a] => (target? address? a).map core
  | _ => none

/-! ## Effects -/

/-- Execution goes on at that index. -/
def goTo (state : MachineState) (target : Nat) : Core :=
  ⟨.running, state.complete target⟩

/-- Execution goes on behind the statement, the last one to change the state. -/
def goOn (state : MachineState) : Core :=
  goTo state (state.pc + 1)

def fault (state : MachineState) (reason : Fault) : Core :=
  ⟨.faulted reason, state⟩

/-- The word of memory at an address, which may be any integer. -/
def word? (state : MachineState) (address : Int) : Option UInt16 :=
  if 0 ≤ address then state.memory[address.toNat]? else none

def load (state : MachineState) (rd : Register) (address : Int) : Core :=
  match word? state address with
  | some value => goOn (state.setRegister rd value)
  | none => fault state (.memoryOutOfRange state.pc address)

def store (state : MachineState) (address : Int) (value : UInt16) : Core :=
  if h : 0 ≤ address ∧ address.toNat < state.memory.size then
    goOn (state.setMemory ⟨address.toNat, h.2⟩ value)
  else fault state (.memoryOutOfRange state.pc address)

/-- What a statement does in a state.  The value is the one that is read, if one is. -/
def meaning (address? : String → Option Nat) (value : UInt16) (state : MachineState) :
    Operation → List Operand → Option Core
  | .nop => noOperand (goOn state)
  | .hlt => noOperand ⟨.halted, (state.complete state.pc).halt⟩
  | .mov => twoRegisters fun rd rs => goOn (state.setRegister rd (state.register rs))
  | .ldi => registerLiteral fun rd n => goOn (state.setRegister rd (UInt16.ofNat n.toNat))
  | .ld => registersLiteral fun rd rs n => load state rd ((state.register rs).toNat + n)
  | .st => registersLiteral fun rd rs n =>
    store state ((state.register rd).toNat + n) (state.register rs)
  | .add => arithmetic fun a b => Machine.truncated (a.toNat + b.toNat)
  | .addi => registerLiteral fun rd n =>
    -- What is added is never negative, so the carry is that of the adder.
    result rd (Machine.truncated ((state.register rd).toNat + (n % 0x10000).toNat))
  | .sub => arithmetic Machine.difference
  | .mul => arithmetic fun a b => Machine.truncated (a.toNat * b.toNat)
  | .div => division fun a b => a / b
  | .mod => division fun a b => a % b
  | .and => arithmetic fun a b => (a &&& b, false)
  | .or => arithmetic fun a b => (a ||| b, false)
  | .xor => arithmetic fun a b => (a ^^^ b, false)
  | .not => oneRegister fun rd => result rd (~~~(state.register rd), false)
  | .shl => registerLiteral fun rd n =>
    result rd (Machine.shiftLeft (state.register rd) (UInt16.ofNat n.toNat))
  | .shr => registerLiteral fun rd n =>
    result rd (Machine.shiftRight (state.register rd) (UInt16.ofNat n.toNat))
  | .cmp => twoRegisters fun rd rs =>
    let compared := Machine.difference (state.register rd) (state.register rs)
    goOn (state.setFlags compared.1 compared.2)
  | .jmp => jump true
  | .jz => jump state.flags.zero
  | .jnz => jump !state.flags.zero
  | .jc => jump state.flags.carry
  | .jnc => jump !state.flags.carry
  | .call => oneTarget address? fun target =>
    goTo (state.setRegister Register.link (UInt16.ofNat (state.pc + 1))) target
  | .ret => noOperand (goTo state (state.register Register.link).toNat)
  | .input => oneRegister fun rd => goOn (state.setRegister rd value)
  | .output => oneRegister fun _ => goOn state
where
  result (rd : Register) (outcome : UInt16 × Bool) : Core :=
    goOn (state.writeResult rd outcome)
  arithmetic (f : UInt16 → UInt16 → UInt16 × Bool) : List Operand → Option Core :=
    twoRegisters fun rd rs => result rd (f (state.register rd) (state.register rs))
  division (f : UInt16 → UInt16 → UInt16) : List Operand → Option Core :=
    twoRegisters fun rd rs =>
      if state.register rs = 0 then fault state (.divideByZero state.pc)
      else result rd (f (state.register rd) (state.register rs), false)
  jump (taken : Bool) : List Operand → Option Core :=
    oneTarget address? fun target => goTo state (if taken then target else state.pc + 1)

/-! ## Runs -/

/-- Status, state, and how many values have been read. -/
structure Progress where
  core : Core
  read : Nat

/-- Before the first statement, on a machine with that many words of memory. -/
def start (memoryWords : Nat) : Progress :=
  ⟨⟨.ready, .initial memoryWords⟩, 0⟩

variable (statements : List Statement) (address? : String → Option Nat) (input : Nat → UInt16)

/-- One statement.  Behind the last one execution ends. -/
def step (progress : Progress) : Option Progress :=
  let ⟨core, read⟩ := progress
  if core.status.isTerminal then some progress
  else match statements[core.state.pc]? with
    | none => some ⟨⟨.halted, core.state.halt⟩, read⟩
    | some statement => do
      let operation ← operation? statement.mnemonic
      let core ← meaning address? (input read) core.state operation statement.operands
      return ⟨core, if operation = .input then read + 1 else read⟩

/-- So many statements. -/
def run : Nat → Progress → Option Progress
  | 0, progress => some progress
  | n + 1, progress => do
    let next ← step statements address? input progress
    run n next

end Interpreter
end Minicomputer
