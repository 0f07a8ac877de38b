import Mathlib.Data.List.Nodup
import Minicomputer.Architecture

/-!
# Tables of instructions

Operations are listed once, and opcodes and mnemonics belong to one operation each.  So an entry is
found under its opcode and under its mnemonic, and nothing else is found there.  What operands an
entry has is one of a few layouts.
-/

namespace Minicomputer

/-! ## Case -/

namespace Text

/-- Visible ASCII characters are not blank. -/
theorem isBlank_of_visible {c : Char} (low : 0x20 < c.toNat) (high : c.toNat < 0x7F) :
    isBlank c = false := by
  simp only [isBlank, Bool.or_eq_false_iff, Bool.and_eq_false_iff, decide_eq_false_iff_not,
    beq_eq_false_iff_ne]
  omega

theorem toNat_capital {c : Char} (low : 97 ≤ c.toNat) (high : c.toNat ≤ 122) :
    c.toUpper.toNat = c.toNat - 32 := by
  have letter : 'a'.val ≤ c.val ∧ c.val ≤ 'z'.val := ⟨low, high⟩
  have shifted : (c.val + ('A'.val - 'a'.val)).toNat = c.toNat - 32 := by
    rw [UInt32.toNat_add]
    show (c.toNat + 4294967264) % 4294967296 = _
    omega
  exact (congrArg Char.toNat (dif_pos letter)).trans shifted

/-- Neither a small letter nor its capital is blank. -/
theorem isBlank_toUpper (c : Char) : isBlank c.toUpper = isBlank c := by
  by_cases letter : 97 ≤ c.toNat ∧ c.toNat ≤ 122
  · have capital := toNat_capital letter.1 letter.2
    rw [isBlank_of_visible (by omega) (by omega), isBlank_of_visible (by omega) (by omega)]
  · have same : c.toUpper = c := dif_neg letter
    rw [same]

theorem trimChars_map_toUpper (cs : List Char) :
    trimChars (cs.map Char.toUpper) = (trimChars cs).map Char.toUpper := by
  have front (cs : List Char) :
      (cs.map Char.toUpper).dropWhile isBlank = (cs.dropWhile isBlank).map Char.toUpper := by
    rw [List.dropWhile_map, show isBlank ∘ Char.toUpper = isBlank from funext isBlank_toUpper]
  rw [trimChars, trimChars, front, ← List.map_reverse, front, List.map_reverse]

end Text

/-! ## Layouts -/

namespace Operation

/-- The lists of operands that operations ask for. -/
def layouts : List (List OperandKind) :=
  [[], [.register], [.register, .register], [.register, .unsigned], [.register, .signed],
    [.register, .register, .signed], [.address]]

theorem operands_mem_layouts (operation : Operation) : operation.operands ∈ layouts := by
  cases operation <;> decide

/-- An address stands alone. -/
theorem operands_of_address_mem {operation : Operation} (h : .address ∈ operation.operands) :
    operation.operands = [.address] := by
  have alone : ∀ kinds ∈ layouts, .address ∈ kinds → kinds = [.address] := by decide
  exact alone operation.operands operation.operands_mem_layouts h

end Operation

/-! ## Entries -/

namespace Architecture

theorem eq_of_operation_eq {architecture : Architecture} {spec spec' : Spec}
    (listed : spec ∈ architecture.specs) (listed' : spec' ∈ architecture.specs)
    (same : spec.operation = spec'.operation) : spec = spec' :=
  List.inj_on_of_nodup_map architecture.nodup listed listed' same

/-- Looking for a key finds the only entry that has it. -/
theorem find?_eq_some_iff_of_key {α : Type} [DecidableEq α] {architecture : Architecture}
    {key : Spec → α} {value : α} {spec : Spec}
    (injective : ∀ spec spec' : Spec, key spec = key spec' → spec.operation = spec'.operation) :
    architecture.specs.find? (fun spec => key spec == value) = some spec ↔
      spec ∈ architecture.specs ∧ key spec = value := by
  constructor
  · intro found
    exact ⟨List.mem_of_find?_eq_some found, by simpa using List.find?_some found⟩
  · rintro ⟨listed, rfl⟩
    -- Something is found, and it is the entry because no other has its key.
    cases found : architecture.specs.find? fun other => key other == key spec with
    | none =>
      have absent := List.find?_eq_none.mp found spec listed
      exact absurd (beq_self_eq_true _) absent
    | some other =>
      have listed' := List.mem_of_find?_eq_some found
      have same : key other = key spec := by simpa using List.find?_some found
      exact congrArg some (eq_of_operation_eq listed' listed (injective _ _ same))

theorem lookupOpcode_eq_some_iff {architecture : Architecture} {opcode : UInt8} {spec : Spec} :
    architecture.lookupOpcode opcode = some spec ↔
      spec ∈ architecture.specs ∧ spec.opcode = opcode :=
  find?_eq_some_iff_of_key fun _ _ same => Operation.code_injective same

theorem lookupMnemonic_eq_some_iff {architecture : Architecture} {mnemonic : String}
    {spec : Spec} :
    architecture.lookupMnemonic mnemonic = some spec ↔
      spec ∈ architecture.specs ∧ spec.mnemonic = normalizeMnemonic mnemonic :=
  find?_eq_some_iff_of_key fun _ _ same => Operation.mnemonic_injective same

theorem operation?_opcode {architecture : Architecture} {spec : Spec}
    (listed : spec ∈ architecture.specs) :
    architecture.operation? spec.opcode = some spec.operation := by
  have found := lookupOpcode_eq_some_iff.mpr ⟨listed, rfl⟩
  rw [operation?, found]
  rfl

/-- Mnemonics are listed in the form in which they are compared. -/
theorem normalizeMnemonic_mnemonic (operation : Operation) :
    normalizeMnemonic operation.mnemonic = operation.mnemonic := by
  have table : ∀ operation ∈ Operation.all,
      normalizeMnemonic operation.mnemonic = operation.mnemonic := by decide
  exact table operation (Operation.mem_all operation)

/-- Mnemonics that differ in the case of letters are the same. -/
theorem normalizeMnemonic_congr {mnemonic mnemonic' : String}
    (sameUpper : mnemonic.toList.map Char.toUpper = mnemonic'.toList.map Char.toUpper) :
    normalizeMnemonic mnemonic = normalizeMnemonic mnemonic' := by
  have normal (s : String) :
      normalizeMnemonic s = String.ofList (Text.trimChars (s.toList.map Char.toUpper)) := by
    rw [normalizeMnemonic, Text.trimChars_map_toUpper]
  rw [normal, normal, sameUpper]

theorem lookupMnemonic_mnemonic {architecture : Architecture} {spec : Spec}
    (listed : spec ∈ architecture.specs) :
    architecture.lookupMnemonic spec.mnemonic = some spec :=
  lookupMnemonic_eq_some_iff.mpr ⟨listed, (normalizeMnemonic_mnemonic spec.operation).symm⟩

end Architecture
end Minicomputer
