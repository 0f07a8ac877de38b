import Minicomputer.Register

/-!
# Instructions

One machine instruction is one word of 32 bits:

```text
[ immediate : 16 ][ src : 4 ][ dest : 4 ][ opcode : 8 ]
```

An `Instruction` holds the four fields of a word side by side.  Every word is some instruction:
the opcode is a plain byte, and whether it stands for an operation is a question for the table of
instructions.
-/

namespace Minicomputer

/-- The fields of an instruction word. -/
structure Instruction where
  opcode : UInt8
  dest : Register
  src : Register
  immediate : UInt16
  deriving DecidableEq, Repr

namespace Instruction

/-- An instruction that carries nothing but its opcode. -/
def nullary (opcode : UInt8) : Instruction :=
  ⟨opcode, .first, .first, 0⟩

/-- The immediate field as a two's complement number. -/
def signedImmediate (instruction : Instruction) : Int :=
  if instruction.immediate.toNat < 0x8000 then instruction.immediate.toNat
  else instruction.immediate.toNat - 0x10000

/-! ## Words -/

/-- The word of an instruction: its fields as the digits of a number, the opcode lowest. -/
def encode (instruction : Instruction) : UInt32 :=
  UInt32.ofNat
    (instruction.opcode.toNat + 0x100 * instruction.dest.val + 0x1000 * instruction.src.val +
      0x10000 * instruction.immediate.toNat)

def decode (word : UInt32) : Instruction where
  opcode := UInt8.ofNat (word.toNat % 0x100)
  dest := Register.ofField (word.toNat / 0x100)
  src := Register.ofField (word.toNat / 0x1000)
  immediate := UInt16.ofNat (word.toNat / 0x10000)

def text (instruction : Instruction) : String :=
  "[op=" ++ Text.prefixedHex 2 instruction.opcode.toNat ++
    " dest=" ++ Text.decimal instruction.dest.val ++
    " src=" ++ Text.decimal instruction.src.val ++
    " imm=" ++ Text.prefixedHex 4 instruction.immediate.toNat ++ "]"

theorem decode_encode (instruction : Instruction) : decode instruction.encode = instruction := by
  obtain ⟨opcode, dest, src, immediate⟩ := instruction
  have hopcode := opcode.toNat_lt
  have himmediate := immediate.toNat_lt
  have hdest := dest.isLt
  have hsrc := src.isLt
  simp only [decode, encode, Register.ofField, UInt32.toNat_ofNat', mk.injEq]
  refine ⟨?_, ?_, ?_, ?_⟩
  · apply UInt8.toNat_inj.mp
    rw [UInt8.toNat_ofNat']
    omega
  · apply Fin.ext
    show _ % 16 = dest.val
    omega
  · apply Fin.ext
    show _ % 16 = src.val
    omega
  · apply UInt16.toNat_inj.mp
    rw [UInt16.toNat_ofNat']
    omega

theorem encode_decode (word : UInt32) : (decode word).encode = word := by
  have hword := word.toNat_lt
  apply UInt32.toNat_inj.mp
  simp only [decode, encode, Register.ofField, UInt32.toNat_ofNat', UInt8.toNat_ofNat',
    UInt16.toNat_ofNat']
  omega

end Instruction
end Minicomputer
