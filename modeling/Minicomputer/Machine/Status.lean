import Minicomputer.Text.Numeral

/-!
# Faults and the status of the processor

A fault stops execution for good.  It names the address of the instruction that could not be
carried out, which is where the program counter stays.
-/

namespace Minicomputer

/-- Why an instruction could not be carried out. -/
inductive Fault where
  | unknownOpcode (pc : Nat) (opcode : UInt8)
  | memoryOutOfRange (pc : Nat) (address : Int)
  | divideByZero (pc : Nat)
  | returnAddressOutOfRange (pc : Nat)
  deriving DecidableEq, Repr

namespace Fault

def pc : Fault → Nat
  | unknownOpcode pc _ | memoryOutOfRange pc _ | divideByZero pc | returnAddressOutOfRange pc => pc

def message : Fault → String
  | unknownOpcode pc opcode =>
    "unknown opcode " ++ Text.prefixedHex 2 opcode.toNat ++ " at " ++ Text.prefixedHex 4 pc
  | memoryOutOfRange pc address =>
    "memory address " ++ Text.signedDecimal address ++ " out of range at " ++
      Text.prefixedHex 4 pc
  | divideByZero pc => "division by zero at " ++ Text.prefixedHex 4 pc
  | returnAddressOutOfRange pc =>
    "CALL at " ++ Text.prefixedHex 1 pc ++ " has no 16 bit return address"

end Fault

/-- Where the processor is in its life. -/
inductive Status where
  | ready
  | running
  | halted
  | faulted (fault : Fault)
  deriving DecidableEq, Repr

namespace Status

/-- A processor that has halted or faulted never executes another instruction. -/
def isTerminal : Status → Bool
  | halted | faulted _ => true
  | ready | running => false

def text : Status → String
  | ready => "Ready"
  | running => "Running"
  | halted => "Halted"
  | faulted fault => "Faulted (" ++ fault.message ++ ")"

end Status
end Minicomputer
