import Minicomputer.Register

/-!
# The state of the machine

Everything a program can change: sixteen registers and a data memory of 16-bit words, the program
counter, three flags, and a count of the instructions completed so far.

The program itself is not part of the state; no instruction changes it.
-/

namespace Minicomputer

/-! ## Flags -/

/-- `halted` is set once the processor has stopped; `zero` and `carry` describe the last result. -/
structure Flags where
  halted : Bool
  zero : Bool
  carry : Bool
  deriving DecidableEq, Repr

namespace Flags

def clear : Flags :=
  ⟨false, false, false⟩

/-- The initials of the flags, in upper case where a flag is set: `[H z C]`. -/
def text (flags : Flags) : String :=
  let initial (isSet : Bool) (upper lower : String) := if isSet then upper else lower
  "[" ++ initial flags.halted "H" "h" ++ " " ++ initial flags.zero "Z" "z" ++ " " ++
    initial flags.carry "C" "c" ++ "]"

end Flags

/-! ## States -/

/-- The state of the machine between two instructions. -/
structure MachineState where
  registers : Vector UInt16 16
  memory : Array UInt16
  pc : Nat
  flags : Flags
  cycles : Nat
  deriving DecidableEq, Repr

namespace MachineState

/-- The state before the first instruction: everything is zero. -/
def initial (memoryWords : Nat) : MachineState where
  registers := Vector.replicate 16 0
  memory := Array.replicate memoryWords 0
  pc := 0
  flags := .clear
  cycles := 0

def register (state : MachineState) (register : Register) : UInt16 :=
  state.registers[register]

def setRegister (state : MachineState) (register : Register) (value : UInt16) : MachineState :=
  { state with registers := state.registers.set register value }

/-- The state with the flags that a result leaves behind. -/
def setFlags (state : MachineState) (value : UInt16) (carry : Bool) : MachineState :=
  { state with flags := { state.flags with zero := value == 0, carry } }

/-- The state with a result in a register and in the flags. -/
def writeResult (state : MachineState) (register : Register) (result : UInt16 × Bool) :
    MachineState :=
  (state.setRegister register result.1).setFlags result.1 result.2

def setMemory (state : MachineState) (address : Fin state.memory.size) (value : UInt16) :
    MachineState :=
  { state with memory := state.memory.set address value }

/-- The state after an instruction has been completed and execution goes on at `target`. -/
def complete (state : MachineState) (target : Nat) : MachineState :=
  { state with pc := target, cycles := state.cycles + 1 }

def halt (state : MachineState) : MachineState :=
  { state with flags := { state.flags with halted := true } }

/-! ## Registers are independent of each other -/

@[simp] theorem register_setRegister_self (state : MachineState) (target : Register)
    (value : UInt16) : (state.setRegister target value).register target = value := by
  simp [register, setRegister]

theorem register_setRegister_of_ne (state : MachineState) {target other : Register}
    (value : UInt16) (h : target ≠ other) :
    (state.setRegister target value).register other = state.register other := by
  have apart : target.val ≠ other.val := fun same => h (Fin.ext same)
  simp [register, setRegister, Vector.getElem_set_ne, apart]

@[simp] theorem register_setFlags (state : MachineState) (value : UInt16) (carry : Bool)
    (target : Register) : (state.setFlags value carry).register target = state.register target :=
  rfl

end MachineState
end Minicomputer
