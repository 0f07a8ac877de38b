import Minicomputer.Assembly.Assembler

/-!
# Numbers in immediate fields

The assembler puts the low sixteen bits of a number into an instruction, and execution reads them
back with or without a sign.  Nothing is lost if the number is one that its place admits.
-/

namespace Minicomputer
namespace Assembler

/-! ## From a number to a field -/

theorem toNat_immediateOf (value : Int) : (immediateOf value).toNat = (value % 0x10000).toNat := by
  rw [immediateOf, UInt16.toNat_ofNat']
  omega

theorem immediateOf_unsigned {value : Int} (h : 0 ≤ value) :
    immediateOf value = UInt16.ofNat value.toNat := by
  apply UInt16.toNat_inj.mp
  rw [toNat_immediateOf, UInt16.toNat_ofNat']
  omega

theorem immediateOf_natCast (n : Nat) : immediateOf n = UInt16.ofNat n :=
  immediateOf_unsigned (Int.natCast_nonneg n)

theorem signedImmediate_immediateOf {value : Int} (h : OperandKind.signed.Admits value)
    (opcode : UInt8) (dest src : Register) :
    (⟨opcode, dest, src, immediateOf value⟩ : Instruction).signedImmediate = value := by
  simp only [OperandKind.Admits, OperandKind.least, OperandKind.greatest] at h
  rw [Instruction.signedImmediate, toNat_immediateOf]
  -- The upper half of the words stands for the negative numbers.
  split
  · omega
  · omega

/-! ## From a field to a number -/

theorem immediateOf_toNat (value : UInt16) : immediateOf value.toNat = value := by
  rw [immediateOf_natCast, UInt16.ofNat_toNat]

theorem immediateOf_signedImmediate (instruction : Instruction) :
    immediateOf instruction.signedImmediate = instruction.immediate := by
  have bounded := instruction.immediate.toNat_lt
  apply UInt16.toNat_inj.mp
  rw [toNat_immediateOf, Instruction.signedImmediate]
  split
  · omega
  · omega

/-! ## What a place admits -/

theorem address_admits_iff {n : Nat} : OperandKind.address.Admits n ↔ n < 0x10000 := by
  simp only [OperandKind.Admits, OperandKind.least, OperandKind.greatest]
  omega

theorem unsigned_admits_toNat (value : UInt16) : OperandKind.unsigned.Admits value.toNat :=
  address_admits_iff.mpr value.toNat_lt

theorem signed_admits_signedImmediate (instruction : Instruction) :
    OperandKind.signed.Admits instruction.signedImmediate := by
  have bounded := instruction.immediate.toNat_lt
  simp only [OperandKind.Admits, OperandKind.least, OperandKind.greatest,
    Instruction.signedImmediate]
  split
  · omega
  · omega

end Assembler
end Minicomputer
