import Mathlib.Data.List.Forall2
import Minicomputer.Architecture.Standard
import Minicomputer.Proofs.Architecture
import Minicomputer.Proofs.Assembly.Encoding
import Minicomputer.Proofs.Assembly.Immediate
import Minicomputer.Proofs.Assembly.Spelling
import Minicomputer.Proofs.Text.Lines

/-!
# What labels stand for

A label stands for the number of statements on the lines before its definition.  An immediate field
has sixteen bits, and a program may have `2 ^ 16` statements, so there is one number that does not
fit: that of a label behind the last statement of a program of full length.  Such a label puts zero
into the field.  All others put their number there, and then the label could as well have been
written as a number.

* `labels_resolve` -- the immediate fields of a program, and the text without labels;
* `label_behind_full_program` -- a text whose label does not fit.
-/

namespace Minicomputer
namespace Assembler

/-! ## Label operands -/

theorem mem_labelsUsed_iff {statement : Statement} {name : String} :
    name ∈ labelsUsed statement ↔ .label name ∈ statement.operands := by
  unfold labelsUsed
  rw [List.mem_filterMap]
  constructor
  · rintro ⟨operand, member, used⟩
    cases operand with
    | register number => cases used
    | number value => cases used
    | label name' =>
      cases used
      exact member
  · intro member
    exact ⟨.label name, member, rfl⟩

theorem OperandFields.address_mem {address? : String → Option Nat} {kinds : List OperandKind}
    {operands : List Operand} {result : List Field}
    (h : OperandFields address? kinds operands result) {name : String}
    (used : .label name ∈ operands) : .address ∈ kinds := by
  induction h with
  | nil => cases used
  | cons first rest ih =>
    rcases List.mem_cons.mp used with here | later
    · subst here
      cases first
      exact List.mem_cons_self ..
    · exact List.mem_cons_of_mem _ (ih later)

/-- A statement that uses a label has no other operand. -/
theorem Encodes.of_label {architecture : Architecture} {address? : String → Option Nat}
    {statement : Statement} {instruction : Instruction}
    (h : Encodes architecture address? statement instruction) {name : String}
    (used : name ∈ labelsUsed statement) :
    ∃ spec address, architecture.lookupMnemonic statement.mnemonic = some spec ∧
      spec.operands = [.address] ∧ statement.operands = [.label name] ∧
      address? name = some address ∧
      instruction = ⟨spec.opcode, .first, .first, UInt16.ofNat address⟩ := by
  obtain ⟨spec, fields, listed, suited, rfl⟩ := h
  -- Only a place for an address takes a label, and an address is the only operand where it stands.
  have member := mem_labelsUsed_iff.mp used
  have layout : spec.operands = [.address] :=
    Operation.operands_of_address_mem (suited.address_mem member)
  rw [layout] at suited
  generalize statement.operands = operands at suited member ⊢
  cases suited with
  | cons first rest =>
    cases rest
    obtain rfl := List.mem_singleton.mp member
    cases first with
    | label known => exact ⟨spec, _, listed, layout, rfl, known, rfl⟩

/-! ## Numbers in place of labels -/

/-- The operand with the address of a label in its place. -/
def withAddress (address? : String → Option Nat) : Operand → Operand
  | .label name =>
    match address? name with
    | some address => .number address
    | none => .label name
  | operand => operand

def withAddresses (address? : String → Option Nat) (statement : Statement) : Statement :=
  { statement with operands := statement.operands.map (withAddress address?) }

theorem withAddresses_of_no_label {address? : String → Option Nat} {statement : Statement}
    (h : labelsUsed statement = []) : withAddresses address? statement = statement := by
  have same : statement.operands.map (withAddress address?) = statement.operands.map id := by
    refine List.map_congr_left fun operand member => ?_
    cases operand with
    | register number => rfl
    | number value => rfl
    | label name =>
      have used : name ∈ labelsUsed statement := mem_labelsUsed_iff.mpr member
      rw [h] at used
      cases used
  unfold withAddresses
  rw [same, List.map_id]

/-- An encoding does not depend on labels that the statement does not use. -/
theorem Encodes.of_no_label {architecture : Architecture} {address? address?' : String → Option Nat}
    {statement : Statement} {instruction : Instruction}
    (h : Encodes architecture address? statement instruction)
    (unused : labelsUsed statement = []) :
    Encodes architecture address?' statement instruction := by
  obtain ⟨spec, fields, listed, suited, rfl⟩ := h
  refine ⟨spec, fields, listed, ?_, rfl⟩
  have no_label (name : String) : .label name ∉ statement.operands := by
    intro member
    have used : name ∈ labelsUsed statement := mem_labelsUsed_iff.mpr member
    rw [unused] at used
    cases used
  generalize statement.operands = operands at suited no_label
  generalize spec.operands = kinds at suited
  -- Operand by operand, as the only one that looks at the addresses is a label.
  induction suited with
  | nil => exact .nil
  | cons first rest ih =>
    refine .cons ?_ (ih fun name member => no_label name (List.mem_cons_of_mem _ member))
    cases first with
    | register inside => exact .register inside
    | literal immediate admitted => exact .literal immediate admitted
    | label known => exact absurd (List.mem_cons_self ..) (no_label _)

/-- A number in place of a label makes no difference exactly if it fits. -/
theorem Encodes.withAddresses_iff {architecture : Architecture}
    {address? address?' : String → Option Nat} {statement : Statement} {instruction : Instruction}
    (h : Encodes architecture address? statement instruction) :
    Encodes architecture address?' (withAddresses address? statement) instruction ↔
      ∀ name ∈ labelsUsed statement, ∀ address, address? name = some address →
        address < 0x10000 := by
  cases labels : labelsUsed statement with
  | nil =>
    rw [withAddresses_of_no_label labels]
    exact iff_of_true (h.of_no_label labels) (by simp)
  | cons name others =>
    have used : name ∈ labelsUsed statement := by simp [labels]
    obtain ⟨spec, address, listed, layout, operand, known, rfl⟩ := h.of_label used
    have labels' : name :: others = [name] := by
      rw [← labels, labelsUsed, operand]
      rfl
    have operand' : (withAddresses address? statement).operands = [.number address] := by
      simp only [withAddresses, operand, List.map_singleton, withAddress, known]
    rw [labels']
    constructor
    -- An address is admitted as a literal exactly if it is below `2 ^ 16`.
    · rintro ⟨spec', fields, listed', suited, -⟩ name' same address' known'
      obtain rfl := List.mem_singleton.mp same
      obtain rfl : address = address' := Option.some.inj (known.symm.trans known')
      cases listed.symm.trans listed'
      rw [layout, operand'] at suited
      cases suited with
      | cons first rest =>
        cases first with
        | literal immediate admitted => exact address_admits_iff.mp admitted
    · intro fits
      have small : address < 0x10000 := fits name (List.mem_singleton_self _) address known
      refine ⟨spec, [.immediate (immediateOf address)], listed, ?_, ?_⟩
      · rw [layout, operand']
        exact .cons (.literal (by decide) (address_admits_iff.mpr small)) .nil
      · rw [immediateOf_natCast]
        rfl

end Assembler

/-! ## Trees without labels -/

namespace Grammar

def FurtherOperand.map (f : Operand → Operand) (further : FurtherOperand) : FurtherOperand :=
  { further with operand := f further.operand }

def Operands.map (f : Operand → Operand) (operands : Operands) : Operands :=
  ⟨f operands.first, operands.further.map (FurtherOperand.map f)⟩

def Arguments.map (f : Operand → Operand) (arguments : Arguments) : Arguments :=
  { arguments with operands := arguments.operands.map (Operands.map f) }

def Statement.map (f : Operand → Operand) (statement : Statement) : Statement :=
  { statement with arguments := statement.arguments.map (Arguments.map f) }

/-- The line with other operands in place of its own. -/
def Line.map (f : Operand → Operand) (line : Line) : Line :=
  { line with statement := line.statement.map (Statement.map f) }

theorem line_map {f : Operand → Operand} {g : Minicomputer.Operand → Minicomputer.Operand}
    (same : ∀ operand, (f operand).operand = g operand.operand) (line : Line) :
    (line.map f).line =
      { line.line with
        statement := line.line.statement.map fun statement =>
          { statement with operands := statement.operands.map g } } := by
  rcases line with ⟨lead, label, gap, _ | ⟨mnemonic, _ | ⟨gap', some_space, _ | ⟨first, further⟩⟩⟩,
    trail, comment⟩
  · rfl
  · rfl
  · rfl
  · simp [Line.map, Statement.map, Arguments.map, Operands.map, FurtherOperand.map, Line.line,
      Statement.statement, Arguments.operandList, Operands.operands, same]

section

variable {f : Operand → Operand} {c : Char}

/-- A character that is in none of the new operands was there before. -/
theorem Operands.mem_text_of_map (other : ∀ operand, c ∉ (f operand).text) {operands : Operands}
    (h : c ∈ (operands.map f).text) : c ∈ operands.text := by
  rcases List.mem_append.mp h with first | further
  · exact absurd first (other _)
  · simp only [Operands.map, List.mem_flatMap, List.mem_map] at further
    rcases further with ⟨_, ⟨operand, inside, rfl⟩, member⟩
    refine List.mem_append_right _ (List.mem_flatMap.mpr ⟨operand, inside, ?_⟩)
    simp only [FurtherOperand.text, FurtherOperand.map, List.mem_append, List.mem_cons, other,
      or_false] at member ⊢
    rcases member with before | comma | after
    · exact .inl before
    · exact .inr (.inl comma)
    · exact .inr (.inr (.inl after))

theorem Statement.mem_text_of_map (other : ∀ operand, c ∉ (f operand).text)
    {statement : Statement} (h : c ∈ (statement.map f).text) : c ∈ statement.text := by
  rcases statement with ⟨mnemonic, _ | ⟨gap, some_space, _ | operands⟩⟩
  · exact h
  · exact h
  · rcases List.mem_append.mp h with inside | arguments
    · exact List.mem_append_left _ inside
    · rcases List.mem_append.mp arguments with space | inside
      · exact List.mem_append_right _ (List.mem_append_left _ space)
      · have old : c ∈ operands.text := Operands.mem_text_of_map other inside
        exact List.mem_append_right _ (List.mem_append_right _ old)

theorem Line.mem_text_of_map (other : ∀ operand, c ∉ (f operand).text) {line : Line}
    (h : c ∈ (line.map f).text) : c ∈ line.text := by
  rcases line with ⟨lead, label, gap, _ | statement, trail, comment⟩
  · exact h
  · have old : c ∈ (statement.map f).text → c ∈ statement.text :=
      Statement.mem_text_of_map other
    simp only [Line.map, Line.text, Option.map_some, textOf, List.mem_append] at h ⊢
    exact h.imp_right (Or.imp_right (Or.imp_right (Or.imp_left old)))

end

/-- The number of a label in decimal digits, in place of the label. -/
def Operand.withLiteral (address? : String → Option Nat) : Operand → Operand
  | .number spelled => .number spelled
  | .word spelled =>
    if spelled.IsRegister then .word spelled
    else match address? spelled.name with
      | some address =>
        if small : address ≤ 2 ^ 63 - 1 then .number (.signed address small) else .word spelled
      | none => .word spelled

theorem Operand.operand_withLiteral {address? : String → Option Nat}
    (small : ∀ name address, address? name = some address → address ≤ 2 ^ 63 - 1)
    (operand : Operand) :
    (operand.withLiteral address?).operand = Assembler.withAddress address? operand.operand := by
  cases operand with
  | number spelled => rfl
  | word spelled =>
    by_cases register : spelled.IsRegister
    · simp only [Operand.withLiteral, Operand.operand, Word.operand, if_pos register]
      rfl
    · cases known : address? spelled.name with
      | none =>
        simp only [Operand.withLiteral, Operand.operand, Word.operand, if_neg register, known,
          Assembler.withAddress]
      | some address =>
        simp only [Operand.withLiteral, Operand.operand, Word.operand, if_neg register, known,
          Assembler.withAddress, dif_pos (small _ _ known), Number.value_signed]

end Grammar

/-! ## Texts without labels -/

def Line.withAddresses (address? : String → Option Nat) (line : Line) : Line :=
  { line with statement := line.statement.map (Assembler.withAddresses address?) }

namespace Source

theorem labelsOf_withAddresses (address? : String → Option Nat) (lines : List Line) :
    labelsOf (lines.map (Line.withAddresses address?)) = labelsOf lines := by
  rw [labelsOf, List.filterMap_map]
  rfl

theorem statementsOf_withAddresses (address? : String → Option Nat) (lines : List Line) :
    statementsOf (lines.map (Line.withAddresses address?)) =
      (statementsOf lines).map (Assembler.withAddresses address?) := by
  rw [statementsOf, statementsOf, List.filterMap_map, List.map_filterMap]
  rfl

theorem Acceptable.withAddresses {lines : List Line} (h : Acceptable lines)
    (address? : String → Option Nat) :
    Acceptable (lines.map (Line.withAddresses address?)) where
  no_register := (labelsOf_withAddresses address? lines).symm ▸ h.no_register
  distinct := (labelsOf_withAddresses address? lines).symm ▸ h.distinct
  fits := by
    rw [statementsOf_withAddresses, List.length_map]
    exact h.fits

theorem labelAddress?_le {lines : List Line} (acceptable : Acceptable lines) {name : String}
    {address : Nat} (known : labelAddress? lines name = some address) : address ≤ 0x10000 :=
  (labelAddress?_le_length known).trans acceptable.fits

end Source

namespace Grammar

/-- The lines of a text with the numbers of its labels in place of the labels. -/
def withoutLabels (trees : List Line) : List Line :=
  trees.map (Line.map (Operand.withLiteral (Source.labelAddress? (trees.map Line.line))))

theorem line_withoutLabels {trees : List Line}
    (acceptable : Source.Acceptable (trees.map Line.line)) :
    (withoutLabels trees).map Line.line =
      (trees.map Line.line).map
        (Line.withAddresses (Source.labelAddress? (trees.map Line.line))) := by
  -- Addresses are small enough to be read again as numbers.
  have small (name : String) (address : Nat)
      (known : Source.labelAddress? (trees.map Line.line) name = some address) :
      address ≤ 2 ^ 63 - 1 :=
    (Source.labelAddress?_le acceptable known).trans (by decide)
  rw [withoutLabels, List.map_map, List.map_map]
  exact List.map_congr_left fun tree _ => line_map (Operand.operand_withLiteral small) tree

/-- There is a text of those lines. -/
theorem exists_text_withoutLabels {text : String} {trees : List Line}
    (texts : Text.lines text.toList = trees.map Line.text) :
    ∃ text' : String, Text.lines text'.toList = (withoutLabels trees).map Line.text := by
  -- No operand has a line feed, so a line feed in a new line would be one in an old line.
  have clean : ∀ line ∈ (withoutLabels trees).map Line.text, '\n' ∉ line := by
    intro line member newline
    obtain ⟨tree', inside', rfl⟩ := List.mem_map.mp member
    obtain ⟨tree, inside, rfl⟩ := List.mem_map.mp inside'
    have old : '\n' ∈ tree.text :=
      Line.mem_text_of_map (fun operand => Operand.newline_not_mem _) newline
    have here : tree.text ∈ Text.lines text.toList := texts ▸ List.mem_map_of_mem inside
    exact Text.newline_not_mem_of_mem_lines here old
  refine ⟨String.ofList (Text.terminated ((withoutLabels trees).map Line.text)), ?_⟩
  rw [String.toList_ofList, Text.lines_terminated clean]

end Grammar

namespace Assembler

theorem forall₂_map_iff {α β γ : Type} {R : α → β → Prop} {R' : γ → β → Prop} {g : α → γ}
    {P : α → Prop} (step : ∀ x y, R x y → (R' (g x) y ↔ P x)) {xs : List α} {ys : List β}
    (h : List.Forall₂ R xs ys) : List.Forall₂ R' (xs.map g) ys ↔ ∀ x ∈ xs, P x := by
  induction h with
  | nil => simp
  | cons first rest ih =>
    rw [List.map_cons, List.forall₂_cons, ih, step _ _ first, List.forall_mem_cons]

/-- The text without labels assembles to the same program exactly if all their numbers fit. -/
theorem assemble_withoutLabels_iff {architecture : Architecture} {text' : String}
    {program : Program} {trees : List Grammar.Line}
    (acceptable : Source.Acceptable (trees.map Grammar.Line.line))
    (encodes : EncodesAll architecture (trees.map Grammar.Line.line) program)
    (texts : Text.lines text'.toList = (Grammar.withoutLabels trees).map Grammar.Line.text) :
    (∃ summary', assemble architecture text' = .ok (program, summary')) ↔
      ∀ statement ∈ Source.statementsOf (trees.map Grammar.Line.line),
        ∀ name ∈ labelsUsed statement, ∀ address,
          Source.labelAddress? (trees.map Grammar.Line.line) name = some address →
            address < 0x10000 := by
  have parses : Source.Parses text' ((Grammar.withoutLabels trees).map Grammar.Line.line) :=
    Source.parses_iff_exists_trees.mpr ⟨_, texts, rfl⟩
  have acceptable' :
      Source.Acceptable ((Grammar.withoutLabels trees).map Grammar.Line.line) := by
    rw [Grammar.line_withoutLabels acceptable]
    exact acceptable.withAddresses _
  have encoded : (∃ summary', assemble architecture text' = .ok (program, summary')) ↔
      EncodesAll architecture ((Grammar.withoutLabels trees).map Grammar.Line.line) program := by
    rw [assemble_eq_ok_iff]
    constructor
    · rintro ⟨lines', parses', -, encodes'⟩
      exact parses'.unique parses ▸ encodes'
    · intro encodes'
      exact ⟨_, parses, acceptable', encodes'⟩
  rw [encoded, EncodesAll, Grammar.line_withoutLabels acceptable,
    Source.statementsOf_withAddresses]
  exact forall₂_map_iff (fun statement instruction h => h.withAddresses_iff) encodes

/-! ## Immediate fields -/

/-- What the labels of a text have become in its program. -/
structure LabelsResolve (architecture : Architecture) (text : String) (program : Program)
    (trees : List Grammar.Line) (lines : List Line) : Prop where
  texts : Text.lines text.toList = trees.map Grammar.Line.text
  lines_eq : lines = trees.map Grammar.Line.line
  size_eq : program.size = (Source.statementsOf lines).length
  size_le : program.size ≤ 0x10000
  /-- The immediate field of an instruction whose operand is a label is the number of statements
  before the only definition of that label, unless this number is that of all addresses.  Then the
  program has full length, and the field is zero. -/
  immediate : ∀ (i : Nat) (statement : Statement) (instruction : Instruction),
    (Source.statementsOf lines)[i]? = some statement → program[i]? = some instruction →
      ∀ name ∈ labelsUsed statement,
        ∃ k, Source.Defines lines k name ∧ (∀ k', Source.Defines lines k' name → k' = k) ∧
          (instruction.immediate.toNat = Source.statementsBefore lines k ↔
            Source.statementsBefore lines k ≠ 0x10000) ∧
          (Source.statementsBefore lines k = 0x10000 →
            program.size = 0x10000 ∧ instruction.immediate = 0)
  exists_literal_text : ∃ text' : String,
    Text.lines text'.toList = (Grammar.withoutLabels trees).map Grammar.Line.text
  /-- Numbers may be written in place of labels exactly if no label has that number. -/
  literals : ∀ text' : String,
    Text.lines text'.toList = (Grammar.withoutLabels trees).map Grammar.Line.text →
      ((∃ summary', assemble architecture text' = .ok (program, summary')) ↔
        ∀ statement ∈ Source.statementsOf lines, ∀ name ∈ labelsUsed statement,
          ∀ k, Source.Defines lines k name → Source.statementsBefore lines k ≠ 0x10000)

/-- The number of a label is below that of all addresses, or it is that number. -/
theorem below_iff_ne {lines : List Line} (acceptable : Source.Acceptable lines) (name : String) :
    (∀ address, Source.labelAddress? lines name = some address → address < 0x10000) ↔
      ∀ k, Source.Defines lines k name → Source.statementsBefore lines k ≠ 0x10000 := by
  constructor
  · intro small k defined
    have known := (Source.labelAddress?_eq_some_iff acceptable.distinct).mpr ⟨k, defined, rfl⟩
    exact (small _ known).ne
  · intro small address known
    obtain ⟨k, defined, rfl⟩ := (Source.labelAddress?_eq_some_iff acceptable.distinct).mp known
    exact (Source.labelAddress?_le acceptable known).lt_of_ne (small k defined)

theorem labels_resolve {architecture : Architecture} {text : String} {program : Program}
    {summary : AssemblySummary}
    (assembled : assemble architecture text = .ok (program, summary)) :
    ∃ trees lines, LabelsResolve architecture text program trees lines := by
  obtain ⟨lines, parses, acceptable, encodes⟩ := assemble_eq_ok_iff.mp ⟨summary, assembled⟩
  obtain ⟨trees, texts, rfl⟩ := Source.parses_iff_exists_trees.mp parses
  have size := (List.Forall₂.length_eq encodes).symm
  rw [Array.length_toList] at size
  have fits := acceptable.fits
  refine ⟨trees, _, texts, rfl, size, size.trans_le fits, ?_,
    Grammar.exists_text_withoutLabels texts, ?_⟩
  · intro i statement instruction stated found name used
    -- The field is the address modulo `2 ^ 16`, and no address is above `2 ^ 16`.
    have encoded := forall₂_getElem? encodes stated (Array.getElem?_toList.trans found)
    obtain ⟨spec, address, -, -, -, known, rfl⟩ := encoded.of_label used
    obtain ⟨k, defined, rfl⟩ := (Source.labelAddress?_eq_some_iff acceptable.distinct).mp known
    have bounded := Source.labelAddress?_le acceptable known
    have total := Source.statementsBefore_le (trees.map Grammar.Line.line) k
    refine ⟨k, defined, fun k' defined' => defined'.unique acceptable.distinct defined, ?_, ?_⟩
    · rw [UInt16.toNat_ofNat']
      omega
    · intro full
      refine ⟨?_, ?_⟩
      · rw [full] at total
        calc program.size
            = (Source.statementsOf (trees.map Grammar.Line.line)).length := size
          _ = 0x10000 := Nat.le_antisymm fits total
      · rw [full]
        rfl
  · intro text' texts'
    rw [assemble_withoutLabels_iff acceptable encodes texts']
    simp only [below_iff_ne acceptable]

theorem labels_resolve_forward :
    assemble .standard "JMP end\nend: HLT" =
        .ok (#[⟨0x50, .first, .first, 1⟩, .nullary 0x01], ⟨2, 1, []⟩) ∧
      ∃ trees lines, LabelsResolve .standard "JMP end\nend: HLT"
        #[⟨0x50, .first, .first, 1⟩, .nullary 0x01] trees lines := by
  have assembled : assemble .standard "JMP end\nend: HLT" =
      .ok (#[⟨0x50, .first, .first, 1⟩, .nullary 0x01], ⟨2, 1, []⟩) :=
    eq_ok_of_toOption (by decide +kernel)
  exact ⟨assembled, labels_resolve assembled⟩

/-! ## The label that does not fit -/

/-- So many lines that do nothing, a jump, and the label of the jump. -/
def jumpToEnd (n : Nat) : List String :=
  List.replicate n "NOP" ++ ["JMP end", "end:"]

def jumpToEndLines (n : Nat) : List Line :=
  List.replicate n ⟨none, some ⟨"NOP", []⟩⟩ ++
    [⟨none, some ⟨"JMP", [.label "end"]⟩⟩, ⟨some "end", none⟩]

theorem parses_jumpToEnd (n : Nat) :
    Source.Parses ("\n".intercalate (jumpToEnd n)) (jumpToEndLines n) := by
  -- There are only three different lines.
  have each (P : List Char → Prop) (nop : P "NOP".toList) (jump : P "JMP end".toList)
      (label : P "end:".toList) : ∀ line ∈ (jumpToEnd n).map String.toList, P line := by
    intro line member
    simp only [jumpToEnd, List.map_append, List.map_replicate, List.mem_append,
      List.mem_replicate, List.map_cons, List.map_nil, List.mem_cons, List.not_mem_nil,
      or_false] at member
    rcases member with ⟨-, rfl⟩ | rfl | rfl
    · exact nop
    · exact jump
    · exact label
  have texts : Text.lines ("\n".intercalate (jumpToEnd n)).toList =
      (jumpToEnd n).map String.toList := by
    rw [String.toList_intercalate]
    apply Text.lines_intercalate
    · exact each _ (by decide) (by decide) (by decide)
    · exact each _ (by decide) (by decide) (by decide)
    · exact each _ (by decide) (by decide) (by decide)
  have nop : Line.parse "NOP".toList = .ok ⟨none, some ⟨"NOP", []⟩⟩ :=
    eq_ok_of_toOption (by decide +kernel)
  have jump : Line.parse "JMP end".toList = .ok ⟨none, some ⟨"JMP", [.label "end"]⟩⟩ :=
    eq_ok_of_toOption (by decide +kernel)
  have label : Line.parse "end:".toList = .ok ⟨some "end", none⟩ :=
    eq_ok_of_toOption (by decide +kernel)
  rw [Source.Parses, texts]
  simp only [jumpToEnd, jumpToEndLines, List.map_append, List.map_replicate, List.map_cons,
    List.map_nil, nop, jump, label]

theorem statementsOf_jumpToEndLines (n : Nat) :
    Source.statementsOf (jumpToEndLines n) =
      List.replicate n ⟨"NOP", []⟩ ++ [⟨"JMP", [.label "end"]⟩] := by
  simp [Source.statementsOf, jumpToEndLines]

theorem labelsOf_jumpToEndLines (n : Nat) : Source.labelsOf (jumpToEndLines n) = ["end"] := by
  simp [Source.labelsOf, jumpToEndLines]

theorem defines_jumpToEndLines (n : Nat) :
    Source.Defines (jumpToEndLines n) (n + 1) "end" ∧
      Source.statementsBefore (jumpToEndLines n) (n + 1) = n + 1 := by
  constructor
  · refine ⟨⟨some "end", none⟩, ?_, rfl⟩
    simp [jumpToEndLines]
  · simp [Source.statementsBefore, Source.statementsOf, jumpToEndLines, List.take_append]

theorem acceptable_jumpToEndLines {n : Nat} (h : n < 0x10000) :
    Source.Acceptable (jumpToEndLines n) where
  no_register := by
    rw [labelsOf_jumpToEndLines, List.forall_mem_singleton]
    decide
  distinct := by
    rw [labelsOf_jumpToEndLines]
    decide
  fits := by
    rw [statementsOf_jumpToEndLines, List.length_append, List.length_replicate]
    exact h

theorem encodesAll_jumpToEndLines {n : Nat} (h : n < 0x10000) :
    EncodesAll .standard (jumpToEndLines n)
      (List.replicate n (Instruction.nullary 0x00) ++
        [(⟨0x50, .first, .first, UInt16.ofNat (n + 1)⟩ : Instruction)]).toArray := by
  have known : Source.labelAddress? (jumpToEndLines n) "end" = some (n + 1) := by
    obtain ⟨defined, before⟩ := defines_jumpToEndLines n
    rw [Source.labelAddress?_eq_some_iff (acceptable_jumpToEndLines h).distinct]
    exact ⟨n + 1, defined, before.symm⟩
  have nop : Encodes .standard (Source.labelAddress? (jumpToEndLines n)) ⟨"NOP", []⟩
      (.nullary 0x00) :=
    ⟨_, [], rfl, .nil, rfl⟩
  have jump : Encodes .standard (Source.labelAddress? (jumpToEndLines n))
      ⟨"JMP", [.label "end"]⟩ ⟨0x50, .first, .first, UInt16.ofNat (n + 1)⟩ :=
    ⟨_, [_], rfl, .cons (.label known) .nil, rfl⟩
  rw [EncodesAll, statementsOf_jumpToEndLines]
  refine List.rel_append ?_ (.cons jump .nil)
  exact List.forall₂_iff_get.mpr ⟨by simp, by simp [nop]⟩

/-- In a program of full length, a jump to a label behind the last statement goes to its start. -/
theorem label_behind_full_program :
    ∃ program summary lines,
      assemble .standard ("\n".intercalate (List.replicate 65535 "NOP" ++ ["JMP end", "end:"])) =
        .ok (program, summary) ∧
      Source.Parses ("\n".intercalate (List.replicate 65535 "NOP" ++ ["JMP end", "end:"])) lines ∧
      (Source.statementsOf lines)[65535]? = some ⟨"JMP", [.label "end"]⟩ ∧
      Source.Defines lines 65536 "end" ∧ Source.statementsBefore lines 65536 = 65536 ∧
      program[65535]? = some ⟨0x50, .first, .first, 0⟩ := by
  -- Nothing of this length is computed: what holds for every length holds for this one.
  have small : 65535 < 0x10000 := by decide
  have parses := parses_jumpToEnd 65535
  obtain ⟨defined, before⟩ := defines_jumpToEndLines 65535
  have last {α : Type} (n : Nat) (a b : α) : (List.replicate n a ++ [b])[n]? = some b := by
    simp
  obtain ⟨summary, assembled⟩ := assemble_eq_ok_iff.mpr
    ⟨_, parses, acceptable_jumpToEndLines small, encodesAll_jumpToEndLines small⟩
  refine ⟨_, summary, _, assembled, parses, ?_, defined, before, ?_⟩
  · rw [statementsOf_jumpToEndLines]
    exact last ..
  · rw [List.getElem?_toArray]
    exact last ..

end Assembler
end Minicomputer
