import Minicomputer.Architecture
import Minicomputer.Log

/-!
# The standard table

The table of instructions that the machine has unless somebody asks for another: all operations,
in the order of their opcodes, with a name and a line of description each.
-/

namespace Minicomputer
namespace Architecture

def standardSpecs : List Spec :=
  [ ⟨.nop, "No operation", "Does nothing for one cycle"⟩,
    ⟨.hlt, "Halt", "Stops the CPU"⟩,
    ⟨.mov, "Move", "rd = rs"⟩,
    ⟨.ldi, "Load immediate", "rd = imm"⟩,
    ⟨.ld, "Load", "rd = mem[rs + simm]"⟩,
    ⟨.st, "Store", "mem[rd + simm] = rs"⟩,
    ⟨.add, "Add", "rd = rd + rs, sets Z and C"⟩,
    ⟨.addi, "Add immediate", "rd = rd + simm, sets Z and C"⟩,
    ⟨.sub, "Subtract", "rd = rd - rs, sets Z and C (borrow)"⟩,
    ⟨.mul, "Multiply", "rd = rd * rs, sets Z and C (overflow)"⟩,
    ⟨.div, "Divide", "rd = rd / rs, faults if rs is zero"⟩,
    ⟨.mod, "Modulo", "rd = rd % rs, faults if rs is zero"⟩,
    ⟨.and, "Bitwise and", "rd = rd & rs"⟩,
    ⟨.or, "Bitwise or", "rd = rd | rs"⟩,
    ⟨.xor, "Bitwise exclusive or", "rd = rd ^ rs"⟩,
    ⟨.not, "Bitwise not", "rd = !rd"⟩,
    ⟨.shl, "Shift left", "rd = rd << imm, C = last bit out"⟩,
    ⟨.shr, "Shift right", "rd = rd >> imm, C = last bit out"⟩,
    ⟨.cmp, "Compare", "Sets Z and C from rd - rs"⟩,
    ⟨.jmp, "Jump", "pc = addr"⟩,
    ⟨.jz, "Jump if zero", "pc = addr if Z"⟩,
    ⟨.jnz, "Jump if not zero", "pc = addr unless Z"⟩,
    ⟨.jc, "Jump if carry", "pc = addr if C"⟩,
    ⟨.jnc, "Jump if not carry", "pc = addr unless C"⟩,
    ⟨.call, "Call", "r15 = pc + 1, pc = addr"⟩,
    ⟨.ret, "Return", "pc = r15"⟩,
    ⟨.input, "Input", "rd = next input event"⟩,
    ⟨.output, "Output", "Sends rd to the renderer"⟩ ]

def standard : Architecture :=
  ⟨standardSpecs, by decide⟩

/-- What is logged when the standard table is taken into use. -/
def standardLoaded : Log.Entry :=
  ⟨.debug, "Loaded architecture with " ++ Text.decimal standard.specs.length ++ " instructions"⟩

end Architecture
end Minicomputer
