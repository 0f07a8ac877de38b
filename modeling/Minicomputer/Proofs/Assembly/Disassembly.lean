import Mathlib.Data.List.Forall2
import Minicomputer.Architecture.Listing
import Minicomputer.Architecture.Standard
import Minicomputer.Proofs.Architecture
import Minicomputer.Proofs.Assembly.Encoding
import Minicomputer.Proofs.Assembly.Immediate
import Minicomputer.Proofs.Assembly.Spelling
import Minicomputer.Proofs.Text.Lines

/-!
# Assembling a disassembly

What the assembler returns is canonical: instructions of the table whose unused fields are zero.
Every canonical instruction is disassembled to a line of the grammar that says it again, so a
listing of canonical instructions assembles to these instructions.

For an instruction that is not canonical nothing is said here: its unused fields are not in its
text, and an opcode outside the table is no line of the grammar.
-/

namespace Minicomputer

/-! ## Canonical instructions -/

/-- The fields that no operand is written to are zero. -/
structure Spec.UnusedZero (spec : Spec) (instruction : Instruction) : Prop where
  dest : spec.operands.count .register < 1 → instruction.dest = .first
  src : spec.operands.count .register < 2 → instruction.src = .first
  immediate : (∀ kind ∈ spec.operands, kind = .register) → instruction.immediate = 0

theorem Spec.unusedZero_iff {spec : Spec} {instruction : Instruction} :
    spec.UnusedZero instruction ↔
      (spec.operands.count .register < 1 → instruction.dest = .first) ∧
        (spec.operands.count .register < 2 → instruction.src = .first) ∧
          ((∀ kind ∈ spec.operands, kind = .register) → instruction.immediate = 0) :=
  ⟨fun ⟨dest, src, immediate⟩ => ⟨dest, src, immediate⟩,
    fun ⟨dest, src, immediate⟩ => ⟨dest, src, immediate⟩⟩

instance (spec : Spec) (instruction : Instruction) : Decidable (spec.UnusedZero instruction) :=
  decidable_of_iff _ Spec.unusedZero_iff.symm

/-- An instruction of the table without anything in its unused fields. -/
def Architecture.Canonical (architecture : Architecture) (instruction : Instruction) : Prop :=
  ∃ spec ∈ architecture.specs, spec.opcode = instruction.opcode ∧ spec.UnusedZero instruction

instance (architecture : Architecture) (instruction : Instruction) :
    Decidable (architecture.Canonical instruction) :=
  inferInstanceAs (Decidable (∃ spec ∈ architecture.specs, _ ∧ _))

namespace Assembler

/-! ## Assembled instructions are canonical -/

def Field.register? : Field → Option Register
  | .register number => some number
  | .immediate _ => none

def Field.immediate? : Field → Option UInt16
  | .register _ => none
  | .immediate value => some value

theorem instructionOf_eq (opcode : UInt8) (fields : List Field) :
    instructionOf opcode fields =
      ⟨opcode, (fields.filterMap Field.register?)[0]?.getD .first,
        (fields.filterMap Field.register?)[1]?.getD .first,
        (fields.filterMap Field.immediate?).head?.getD 0⟩ :=
  rfl

section

variable {address? : String → Option Nat} {kinds : List OperandKind} {operands : List Operand}
  {fields : List Field}

theorem OperandFields.length_registers (h : OperandFields address? kinds operands fields) :
    (fields.filterMap Field.register?).length = kinds.count .register := by
  induction h with
  | nil => rfl
  | cons first rest ih =>
    cases first with
    | register inside => simp [Field.register?, ih]
    | literal immediate admitted =>
      rw [List.filterMap_cons_none rfl, ih, List.count_cons_of_ne immediate]
    | label known => rw [List.filterMap_cons_none rfl, ih, List.count_cons_of_ne (by decide)]

theorem OperandFields.immediates_eq_nil (h : OperandFields address? kinds operands fields)
    (all : ∀ kind ∈ kinds, kind = .register) : fields.filterMap Field.immediate? = [] := by
  induction h with
  | nil => rfl
  | cons first rest ih =>
    obtain ⟨here, later⟩ := List.forall_mem_cons.mp all
    cases first with
    | register inside => exact ih later
    | literal immediate admitted => exact absurd here immediate
    | label known => cases here

end

theorem Encodes.canonical {architecture : Architecture} {address? : String → Option Nat}
    {statement : Statement} {instruction : Instruction}
    (h : Encodes architecture address? statement instruction) :
    architecture.Canonical instruction := by
  obtain ⟨spec, fields, found, suited, rfl⟩ := h
  have listed := (Architecture.lookupMnemonic_eq_some_iff.mp found).1
  have registers := suited.length_registers
  rw [instructionOf_eq]
  refine ⟨spec, listed, rfl, ⟨fun few => ?_, fun few => ?_, fun all => ?_⟩⟩
  · have none_left : (fields.filterMap Field.register?)[0]? = none :=
      List.getElem?_eq_none (by omega)
    simp only [none_left, Option.getD_none]
  · have none_left : (fields.filterMap Field.register?)[1]? = none :=
      List.getElem?_eq_none (by omega)
    simp only [none_left, Option.getD_none]
  · simp only [suited.immediates_eq_nil all, List.head?_nil, Option.getD_none]

end Assembler

/-! ## The tree of a disassembled instruction -/

namespace Grammar

theorem natAbs_toNat_le (value : UInt16) : (value.toNat : Int).natAbs ≤ 2 ^ 63 - 1 := by
  have bounded := value.toNat_lt
  omega

theorem natAbs_signedImmediate_le (instruction : Instruction) :
    instruction.signedImmediate.natAbs ≤ 2 ^ 63 - 1 := by
  have bounded := instruction.immediate.toNat_lt
  unfold Instruction.signedImmediate
  split
  · omega
  · omega

/-- The operand of that kind, if `register` is the next register. -/
def operandTree (instruction : Instruction) (register : Register) : OperandKind → Operand
  | .register => .word (.register register.val)
  | .unsigned => .number (.signed instruction.immediate.toNat (natAbs_toNat_le _))
  | .signed => .number (.signed instruction.signedImmediate (natAbs_signedImmediate_le _))
  | .address => .number (.hexadecimal 4 instruction.immediate.toNat (natAbs_toNat_le _))

/-- What that operand puts into the word. -/
def operandField (instruction : Instruction) (register : Register) :
    OperandKind → Assembler.Field
  | .register => .register register
  | _ => .immediate instruction.immediate

/-- The registers that are left behind an operand of that kind. -/
def registersBehind (registers : List Register) : OperandKind → List Register
  | .register => registers.tail
  | _ => registers

def operandTrees (instruction : Instruction) (registers : List Register) :
    List OperandKind → List Operand
  | [] => []
  | kind :: kinds =>
    operandTree instruction (registers.headD .first) kind ::
      operandTrees instruction (registersBehind registers kind) kinds

def operandFields (instruction : Instruction) (registers : List Register) :
    List OperandKind → List Assembler.Field
  | [] => []
  | kind :: kinds =>
    operandField instruction (registers.headD .first) kind ::
      operandFields instruction (registersBehind registers kind) kinds

/-- The trees spell what the disassembler prints, operand by operand. -/
theorem text_operandTrees (instruction : Instruction) (registers : List Register)
    (kinds : List OperandKind) :
    (operandTrees instruction registers kinds).map Operand.text =
      (Architecture.operandTexts instruction registers kinds).map String.toList := by
  -- The registers that are left change along the list, so they stay general.
  induction kinds generalizing registers with
  | nil => rfl
  | cons kind kinds ih =>
    rw [operandTrees, List.map_cons, ih]
    cases kind with
    | register =>
      exact congrArg (· :: _) (Word.text_register _)
    | unsigned =>
      exact congrArg (· :: _) (Number.text_signed _ _)
    | signed =>
      exact congrArg (· :: _) (Number.text_signed _ _)
    | address =>
      exact congrArg (· :: _) (Number.text_hexadecimal _ _ _)

theorem operandField_operandTree {address? : String → Option Nat} (instruction : Instruction)
    (register : Register) (kind : OperandKind) :
    Assembler.OperandField address? kind (operandTree instruction register kind).operand
      (operandField instruction register kind) := by
  -- The three kinds of numbers differ in how they are written and in what they admit.
  have literal (kind : OperandKind) (number : Number) (immediate : kind ≠ .register)
      (admitted : kind.Admits number.value)
      (same : Assembler.immediateOf number.value = instruction.immediate) :
      Assembler.OperandField address? kind (.number number.value)
        (.immediate instruction.immediate) :=
    same ▸ .literal immediate admitted
  cases kind with
  | register =>
    rw [operandTree, Operand.operand, Word.operand_register]
    exact .register register.isLt
  | unsigned =>
    apply literal
    · decide
    · rw [Number.value_signed]
      exact Assembler.unsigned_admits_toNat _
    · rw [Number.value_signed]
      exact Assembler.immediateOf_toNat _
  | signed =>
    apply literal
    · decide
    · rw [Number.value_signed]
      exact Assembler.signed_admits_signedImmediate _
    · rw [Number.value_signed]
      exact Assembler.immediateOf_signedImmediate _
  | address =>
    apply literal
    · decide
    · rw [Number.value_hexadecimal]
      exact Assembler.unsigned_admits_toNat _
    · rw [Number.value_hexadecimal]
      exact Assembler.immediateOf_toNat _

theorem operandFields_operandTrees {address? : String → Option Nat} (instruction : Instruction)
    (registers : List Register) (kinds : List OperandKind) :
    Assembler.OperandFields address? kinds
      ((operandTrees instruction registers kinds).map Operand.operand)
      (operandFields instruction registers kinds) := by
  induction kinds generalizing registers with
  | nil => exact .nil
  | cons kind kinds ih => exact .cons (operandField_operandTree ..) (ih _)

/-- The fields of a canonical instruction are all there is in it. -/
theorem instructionOf_operandFields {spec : Spec} {instruction : Instruction}
    (unused : spec.UnusedZero instruction) :
    Assembler.instructionOf instruction.opcode
      (operandFields instruction [instruction.dest, instruction.src] spec.operands) =
        instruction := by
  rcases instruction with ⟨opcode, dest, src, immediate⟩
  rcases unused with ⟨noDest, noSrc, noImmediate⟩
  dsimp only at noDest noSrc noImmediate ⊢
  -- In each layout the fields that nothing is written to are those that are zero.
  have layout : spec.operands ∈ Operation.layouts := spec.operation.operands_mem_layouts
  generalize spec.operands = kinds at layout noDest noSrc noImmediate ⊢
  simp only [Operation.layouts, List.mem_cons, List.not_mem_nil, or_false] at layout
  rcases layout with rfl | rfl | rfl | rfl | rfl | rfl | rfl
  · rw [noDest (by decide), noSrc (by decide), noImmediate (by decide)]
    rfl
  · rw [noSrc (by decide), noImmediate (by decide)]
    rfl
  · rw [noImmediate (by decide)]
    rfl
  · rw [noSrc (by decide)]
    rfl
  · rw [noSrc (by decide)]
    rfl
  · rfl
  · rw [noDest (by decide), noSrc (by decide)]
    rfl

/-! ## The line of a disassembled instruction -/

def noSpaces : Spaces :=
  ⟨[], by simp⟩

/-- Spaces up to the column of the operands. -/
def gapBehind (mnemonic : Word) : Spaces where
  text := List.replicate (4 - mnemonic.text.length) ' ' ++ [' ']
  areSpaces := by
    intro c member
    rcases List.mem_append.mp member with filled | last
    · exact .inl (List.eq_of_mem_replicate filled)
    · exact .inl (List.mem_singleton.mp last)

def furtherTree (operand : Operand) : FurtherOperand :=
  ⟨noSpaces, ⟨[' '], by simp [IsSpace]⟩, operand⟩

/-- The statement with these operands, in columns. -/
def statementTree (mnemonic : Word) : List Operand → Statement
  | [] => ⟨mnemonic, none⟩
  | first :: further =>
    ⟨mnemonic, some ⟨gapBehind mnemonic, by simp [gapBehind],
      some ⟨first, further.map furtherTree⟩⟩⟩

/-- A line that is a statement and nothing else. -/
def statementLine (statement : Statement) : Line :=
  ⟨noSpaces, none, noSpaces, some statement, noSpaces, none⟩

theorem statement_statementTree (mnemonic : Word) (operands : List Operand) :
    (statementTree mnemonic operands).statement =
      ⟨mnemonic.name, operands.map Operand.operand⟩ := by
  cases operands with
  | nil => rfl
  | cons first further =>
    simp [statementTree, Statement.statement, Arguments.operandList, Operands.operands,
      furtherTree]

theorem text_statementLine (statement : Statement) :
    (statementLine statement).text = statement.text := by
  simp [statementLine, Line.text, textOf, noSpaces]

theorem intercalate_cons {α : Type} (mark first : List α) (rest : List (List α)) :
    mark.intercalate (first :: rest) = first ++ rest.flatMap (mark ++ ·) := by
  induction rest generalizing first with
  | nil => simp
  | cons second rest ih => rw [List.intercalate_cons_cons, ih, List.flatMap_cons,
      List.append_assoc, List.append_assoc]

theorem text_statementTree {mnemonic : Word} {operands : List Operand} {name : String}
    {texts : List String} (named : mnemonic.text = name.toList)
    (same : operands.map Operand.text = texts.map String.toList) :
    (statementTree mnemonic operands).text =
      (match texts with
        | [] => name
        | texts => String.ofList (name.toList.rightpad 4 ' ') ++ " " ++
            ", ".intercalate texts).toList := by
  cases operands with
  | nil =>
    obtain rfl : texts = [] := by simpa using same.symm
    simp [statementTree, Statement.text, textOf, named]
  | cons first further =>
    cases texts with
    | nil => cases same
    | cons text texts =>
      -- What stands before an operand, other than the first, is the comma that joins the texts.
      obtain ⟨same, same'⟩ := List.cons.inj same
      have commas : (further.map furtherTree).flatMap FurtherOperand.text =
          (texts.map String.toList).flatMap (", ".toList ++ ·) := by
        rw [← same', List.flatMap_map, List.flatMap_map]
        rfl
      simp only [statementTree, Statement.text, textOf, Arguments.text, Operands.text, gapBehind,
        named, same, commas, String.toList_append, String.toList_intercalate, List.map_cons,
        intercalate_cons, String.toList_ofList, List.rightpad, List.append_assoc]
      rfl

/-- The characters of disassembled instructions. -/
def IsPrinted (c : Char) : Prop :=
  c = ' ' ∨ c = ',' ∨ c = '-' ∨ ContinuesWord c

instance (c : Char) : Decidable (IsPrinted c) :=
  inferInstanceAs (Decidable (_ ∨ _))

theorem Word.isPrinted {word : Word} {c : Char} (h : c ∈ word.text) : IsPrinted c := by
  rcases List.mem_cons.mp h with rfl | inside
  · exact .inr (.inr (.inr (.inl word.starts)))
  · exact .inr (.inr (.inr (word.continues c inside)))

theorem Operand.isPrinted {operand : Operand} {c : Char} (h : c ∈ operand.text) : IsPrinted c :=
  .inr (.inr (Operand.mem_text h))

theorem Spaces.isPrinted {spaces : Spaces} (noTab : '\t' ∉ spaces.text) {c : Char}
    (h : c ∈ spaces.text) : IsPrinted c := by
  rcases spaces.areSpaces c h with space | rfl
  · exact .inl space
  · exact absurd h noTab

theorem statementTree_isPrinted {mnemonic : Word} {operands : List Operand} {c : Char}
    (h : c ∈ (statementTree mnemonic operands).text) : IsPrinted c := by
  cases operands with
  | nil =>
    simp only [statementTree, Statement.text, textOf, List.append_nil] at h
    exact Word.isPrinted h
  | cons first further =>
    simp only [statementTree, Statement.text, textOf, Arguments.text, Operands.text,
      List.mem_append, List.mem_flatMap, List.mem_map] at h
    rcases h with inMnemonic | inGap | inFirst | ⟨_, ⟨operand, -, rfl⟩, inFurther⟩
    · exact Word.isPrinted inMnemonic
    · exact Spaces.isPrinted (by simp [gapBehind]) inGap
    · exact Operand.isPrinted inFirst
    · simp only [furtherTree, FurtherOperand.text, noSpaces, List.nil_append,
        List.mem_cons, List.mem_append, List.not_mem_nil, or_false] at inFurther
      rcases inFurther with comma | space | inside
      · exact .inr (.inl comma)
      · exact .inl space
      · exact Operand.isPrinted inside

/-! ## Listings -/

/-- The statement is what the instruction is disassembled to. -/
structure Disassembled (architecture : Architecture) (instruction : Instruction)
    (statement : Statement) : Prop where
  text : statement.text = (architecture.disassemble instruction).toList
  encodes : ∀ address? : String → Option Nat,
    Assembler.Encodes architecture address? statement.statement instruction
  printed : ∀ c ∈ statement.text, IsPrinted c

theorem exists_disassembled {architecture : Architecture} {instruction : Instruction}
    (canonical : architecture.Canonical instruction) :
    ∃ statement, Disassembled architecture instruction statement := by
  obtain ⟨spec, listed, opcode, unused⟩ := canonical
  obtain ⟨mnemonic, named⟩ := exists_mnemonic spec.operation
  have name : mnemonic.name = spec.mnemonic := by
    calc mnemonic.name
        = String.ofList spec.mnemonic.toList := congrArg String.ofList named
      _ = spec.mnemonic := String.ofList_toList
  let registers := [instruction.dest, instruction.src]
  let operands := operandTrees instruction registers spec.operands
  refine ⟨statementTree mnemonic operands, ?_, fun address? => ?_, fun c => ?_⟩
  -- The opcode leads to the entry, and so the text is made of its mnemonic and its layout.
  · have found := Architecture.lookupOpcode_eq_some_iff.mpr ⟨listed, opcode⟩
    rw [text_statementTree named (text_operandTrees instruction registers spec.operands),
      Architecture.disassemble, found]
    rfl
  -- The mnemonic leads back to the entry, whatever its labels stand for, as there are none.
  · refine ⟨spec, operandFields instruction registers spec.operands, ?_, ?_, ?_⟩
    · rw [statement_statementTree, name]
      exact Architecture.lookupMnemonic_mnemonic listed
    · rw [statement_statementTree]
      exact operandFields_operandTrees instruction registers spec.operands
    · rw [opcode]
      exact (instructionOf_operandFields unused).symm
  · exact statementTree_isPrinted

theorem exists_disassembled_list {architecture : Architecture} {instructions : List Instruction}
    (canonical : ∀ instruction ∈ instructions, architecture.Canonical instruction) :
    ∃ statements : List Statement,
      List.Forall₂ (Disassembled architecture) instructions statements := by
  induction instructions with
  | nil => exact ⟨[], .nil⟩
  | cons first rest ih =>
    obtain ⟨here, later⟩ := List.forall_mem_cons.mp canonical
    obtain ⟨statement, disassembled⟩ := exists_disassembled here
    obtain ⟨statements, derived⟩ := ih later
    exact ⟨statement :: statements, .cons disassembled derived⟩

/-- The lines of a listing are those of its statements. -/
theorem lines_listing {architecture : Architecture} {instructions : List Instruction}
    {statements : List Statement}
    (derived : List.Forall₂ (Disassembled architecture) instructions statements) :
    Text.lines ("\n".intercalate (instructions.map architecture.disassemble)).toList =
      (statements.map statementLine).map Line.text := by
  have texts : (instructions.map architecture.disassemble).map String.toList =
      (statements.map statementLine).map Line.text := by
    induction derived with
    | nil => rfl
    | cons first rest ih =>
      simp only [List.map_cons, ih, text_statementLine, first.text]
  -- No printed line has a character that would end it, and none is empty.
  have printed : ∀ line ∈ (statements.map statementLine).map Line.text,
      line ≠ [] ∧ ∀ c ∈ line, IsPrinted c := by
    clear texts
    induction derived with
    | nil => simp
    | @cons instruction statement _ _ first rest ih =>
      refine List.forall_mem_cons.mpr ⟨?_, ih⟩
      rw [text_statementLine]
      exact ⟨List.cons_ne_nil _ _, first.printed⟩
  rw [String.toList_intercalate, texts]
  apply Text.lines_intercalate
  · intro line member newline
    exact absurd ((printed line member).2 _ newline) (by decide)
  · intro line member
    exact (printed line member).1
  · intro line member last
    exact absurd ((printed line member).2 _ (List.mem_of_getLast? last)) (by decide)

end Grammar

namespace Assembler

theorem assemble_listing {architecture : Architecture} {instructions : List Instruction}
    (short : instructions.length ≤ 0x10000)
    (canonical : ∀ instruction ∈ instructions, architecture.Canonical instruction) :
    ∃ summary,
      assemble architecture ("\n".intercalate (instructions.map architecture.disassemble)) =
        .ok (instructions.toArray, summary) := by
  obtain ⟨statements, derived⟩ := Grammar.exists_disassembled_list canonical
  have parses := Source.parses_iff_exists_trees.mpr ⟨_, Grammar.lines_listing derived, rfl⟩
  have labels : Source.labelsOf ((statements.map Grammar.statementLine).map Grammar.Line.line) =
      [] := by
    rw [Source.labelsOf, List.map_map, List.filterMap_map]
    exact List.filterMap_eq_nil_iff.mpr fun statement _ => rfl
  have statements_eq :
      Source.statementsOf ((statements.map Grammar.statementLine).map Grammar.Line.line) =
        statements.map Grammar.Statement.statement := by
    rw [Source.statementsOf, List.map_map, List.filterMap_map]
    exact congrFun List.filterMap_eq_map' statements
  refine assemble_eq_ok_iff.mpr ⟨_, parses, ⟨?_, ?_, ?_⟩, ?_⟩
  · rw [labels]
    exact List.forall_mem_nil _
  · rw [labels]
    exact List.nodup_nil
  · rw [statements_eq, List.length_map, ← derived.length_eq]
    exact short
  · rw [EncodesAll, statements_eq, List.forall₂_map_left_iff]
    exact derived.flip.imp fun statement instruction h => h.encodes _

/-- What is assembled is canonical, a listing of canonical instructions assembles to them, and so
the listing of an assembled program assembles to that program. -/
theorem assembly_undoes_disassembly (architecture : Architecture) :
    (∀ text program summary, assemble architecture text = .ok (program, summary) →
      ∀ instruction ∈ program, architecture.Canonical instruction) ∧
    (∀ instructions : List Instruction, instructions.length ≤ 0x10000 →
      (∀ instruction ∈ instructions, architecture.Canonical instruction) →
        ∃ summary,
          assemble architecture ("\n".intercalate (instructions.map architecture.disassemble)) =
            .ok (instructions.toArray, summary)) ∧
    (∀ text program summary, assemble architecture text = .ok (program, summary) →
      ∃ summary',
        assemble architecture ("\n".intercalate (program.toList.map architecture.disassemble)) =
          .ok (program, summary')) := by
  have canonical (text : String) (program : Program) (summary : AssemblySummary)
      (assembled : assemble architecture text = .ok (program, summary)) :
      program.size ≤ 0x10000 ∧ ∀ instruction ∈ program, architecture.Canonical instruction := by
    obtain ⟨lines, -, acceptable, encodes⟩ := assemble_eq_ok_iff.mp ⟨summary, assembled⟩
    constructor
    · rw [← Array.length_toList, ← List.Forall₂.length_eq encodes]
      exact acceptable.fits
    · intro instruction member
      obtain ⟨statement, encoded⟩ := exists_of_mem_right encodes member.val
      exact encoded.canonical
  refine ⟨fun text program summary assembled => (canonical text program summary assembled).2,
    fun instructions => assemble_listing, fun text program summary assembled => ?_⟩
  -- The third part is the second for what the first says is canonical.
  obtain ⟨short, all⟩ := canonical text program summary assembled
  exact assemble_listing (by simpa using short) fun instruction member =>
    all instruction (Array.mem_def.mpr member)

theorem assembly_undoes_disassembly_store :
    (∀ instruction ∈ ([⟨0x11, 1, 0, 42⟩, ⟨0x13, 1, 2, 0xFFFD⟩, ⟨0x01, 0, 0, 0⟩] : List Instruction),
      Architecture.standard.Canonical instruction) ∧
    ∃ summary, assemble .standard ("\n".intercalate
      (([⟨0x11, 1, 0, 42⟩, ⟨0x13, 1, 2, 0xFFFD⟩, ⟨0x01, 0, 0, 0⟩] : List Instruction).map
        Architecture.standard.disassemble)) =
          .ok (#[⟨0x11, 1, 0, 42⟩, ⟨0x13, 1, 2, 0xFFFD⟩, ⟨0x01, 0, 0, 0⟩], summary) := by
  have canonical : ∀ instruction ∈
      ([⟨0x11, 1, 0, 42⟩, ⟨0x13, 1, 2, 0xFFFD⟩, ⟨0x01, 0, 0, 0⟩] : List Instruction),
      Architecture.standard.Canonical instruction := by decide
  exact ⟨canonical, (assembly_undoes_disassembly .standard).2.1 _ (by decide) canonical⟩

end Assembler
end Minicomputer
