import Mathlib.Data.List.Forall2
import Minicomputer.Architecture.Standard
import Minicomputer.Proofs.Architecture
import Minicomputer.Proofs.Assembly.Encoding
import Minicomputer.Proofs.Assembly.LineProblems

/-!
# When a text does not assemble

The second pass stops at the first statement that cannot be encoded, but it runs only if the first
pass has accepted all lines.  So an error of the first pass on a late line comes before an error of
the second on an early one.

* `Encodable` -- a statement can be encoded, given the labels of the text;
* `StatementProblem` -- the first check that a statement fails;
* `Reports` -- what is reported about a text, by its lines alone;
* `assemble_fails_exactly` -- a text assembles exactly if nothing is to be reported, and what is
  reported is that.
-/

namespace Minicomputer
namespace Assembler

variable {architecture : Architecture} {labels : List String} {symbols : SymbolTable}
  {address? : String → Option Nat} {kind : OperandKind} {operand : Operand}
  {statement : Statement} {problem : AssemblyProblem}

/-! ## Operands -/

/-- The operand is written as one of that kind. -/
inductive Matches : OperandKind → Operand → Prop
  | register (number : Nat) : Matches .register (.register number)
  | literal {kind : OperandKind} (immediate : kind ≠ .register) (value : Int) :
      Matches kind (.number value)
  | label (name : String) : Matches .address (.label name)

/-- The operand suits a place of that kind in a text with those labels. -/
inductive Suits (labels : List String) : OperandKind → Operand → Prop
  | register {number : Nat} (bound : number ≤ 15) : Suits labels .register (.register number)
  | literal {kind : OperandKind} {value : Int} (immediate : kind ≠ .register)
      (admitted : kind.Admits value) : Suits labels kind (.number value)
  | label {name : String} (defined : name ∈ labels) : Suits labels .address (.label name)

/-- What is wrong with an operand in the place of that number, which asks for that kind. -/
inductive OperandProblem (labels : List String) (mnemonic : String) (position : Nat) :
    OperandKind → Operand → AssemblyProblem → Prop
  | wrongOperandKind {kind : OperandKind} {operand : Operand} (other : ¬ Matches kind operand) :
      OperandProblem labels mnemonic position kind operand
        (.wrongOperandKind mnemonic position kind)
  | registerOutOfRange {number : Nat} (beyond : 15 < number) :
      OperandProblem labels mnemonic position .register (.register number)
        (.registerOutOfRange number)
  | immediateOutOfRange {kind : OperandKind} {value : Int} (immediate : kind ≠ .register)
      (beyond : ¬ kind.Admits value) :
      OperandProblem labels mnemonic position kind (.number value)
        (.immediateOutOfRange kind value)
  | undefinedLabel {name : String} (unknown : name ∉ labels) :
      OperandProblem labels mnemonic position .address (.label name) (.undefinedLabel name)

/-- What is wrong with the first operand that does not suit its place, where the first place has the
number `position`. -/
inductive FirstProblem (labels : List String) (mnemonic : String) :
    Nat → List OperandKind → List Operand → AssemblyProblem → Prop
  | here {position : Nat} {kind : OperandKind} {operand : Operand} {kinds : List OperandKind}
      {operands : List Operand} {problem : AssemblyProblem}
      (wrong : OperandProblem labels mnemonic position kind operand problem) :
      FirstProblem labels mnemonic position (kind :: kinds) (operand :: operands) problem
  | later {position : Nat} {kind : OperandKind} {operand : Operand} {kinds : List OperandKind}
      {operands : List Operand} {problem : AssemblyProblem} (suits : Suits labels kind operand)
      (rest : FirstProblem labels mnemonic (position + 1) kinds operands problem) :
      FirstProblem labels mnemonic position (kind :: kinds) (operand :: operands) problem

/-- The labels are those that have an address. -/
def Knows (address? : String → Option Nat) (labels : List String) : Prop :=
  ∀ name, (∃ address, address? name = some address) ↔ name ∈ labels

theorem suits_iff (known : Knows address? labels) :
    Suits labels kind operand ↔ ∃ field, OperandField address? kind operand field := by
  constructor
  · intro h
    cases h with
    | register bound => exact ⟨_, .register (Nat.lt_succ_of_le bound)⟩
    | literal immediate admitted => exact ⟨_, .literal immediate admitted⟩
    | @label name defined =>
      obtain ⟨address, found⟩ := (known name).mpr defined
      exact ⟨_, .label found⟩
  · rintro ⟨field, h⟩
    cases h with
    | register inside => exact .register (Nat.le_of_lt_succ inside)
    | literal immediate admitted => exact .literal immediate admitted
    | @label name address found => exact .label ((known name).mp ⟨address, found⟩)

theorem ofNumber?_eq_none_iff {number : Nat} : Register.ofNumber? number = none ↔ 15 < number := by
  unfold Register.ofNumber?
  split
  next inside => simpa using Nat.le_of_lt_succ inside
  next beyond => simpa using Nat.lt_of_succ_le (Nat.le_of_not_lt beyond)

theorem operandProblem_of_field (known : Knows symbols.address? labels) {mnemonic : String}
    {position : Nat} (h : field symbols mnemonic position kind operand = .error problem) :
    OperandProblem labels mnemonic position kind operand problem := by
  -- The cases are those of the definition, in its order.
  unfold field at h
  split at h
  next number =>
    split at h
    next => cases h
    next absent =>
      cases h
      exact .registerOutOfRange (ofNumber?_eq_none_iff.mp absent)
  next name =>
    split at h
    next => cases h
    next absent =>
      cases h
      refine .undefinedLabel fun defined => ?_
      obtain ⟨address, found⟩ := (known name).mpr defined
      cases absent.symm.trans found
  next noRegister =>
    cases h
    refine .wrongOperandKind fun alike => ?_
    cases alike with
    | register number => exact noRegister number rfl
    | literal immediate value => exact immediate rfl
  next immediate =>
    cases h
    refine .wrongOperandKind fun alike => ?_
    cases alike
    exact immediate rfl
  next noAddress _ =>
    cases h
    refine .wrongOperandKind fun alike => ?_
    cases alike
    exact noAddress rfl
  next kind value immediate =>
    split at h
    next => cases h
    next beyond =>
      cases h
      refine .immediateOutOfRange ?_ beyond
      rintro rfl
      exact immediate rfl

theorem field_of_operandProblem (known : Knows symbols.address? labels) {mnemonic : String}
    {position : Nat} (h : OperandProblem labels mnemonic position kind operand problem) :
    field symbols mnemonic position kind operand = .error problem := by
  cases h with
  | wrongOperandKind other =>
    -- By the form of the operand; what is left are the kinds that are not written like it.
    cases operand with
    | register number =>
      cases kind with
      | register => exact absurd (.register number) other
      | unsigned | signed | address => rfl
    | number value =>
      cases kind with
      | register => rfl
      | unsigned | signed | address => exact absurd (.literal (by decide) value) other
    | label name =>
      cases kind with
      | address => exact absurd (.label name) other
      | register | unsigned | signed => rfl
  | registerOutOfRange beyond =>
    simp [field, ofNumber?_eq_none_iff.mpr beyond]
  | immediateOutOfRange immediate beyond =>
    cases kind with
    | register => exact absurd rfl immediate
    | unsigned | signed | address => simp [field, beyond]
  | @undefinedLabel name unknown =>
    have absent : symbols.address? name = none :=
      Option.eq_none_iff_forall_ne_some.mpr fun address found =>
        unknown ((known name).mp ⟨address, found⟩)
    simp [field, absent]

theorem field_eq_error_iff (known : Knows symbols.address? labels) {mnemonic : String}
    {position : Nat} :
    field symbols mnemonic position kind operand = .error problem ↔
      OperandProblem labels mnemonic position kind operand problem :=
  ⟨operandProblem_of_field known, field_of_operandProblem known⟩

theorem fields_eq_error_iff (known : Knows symbols.address? labels) {mnemonic : String}
    {position : Nat} {kinds : List OperandKind} {operands : List Operand} :
    fields symbols mnemonic position kinds operands = .error problem ↔
      FirstProblem labels mnemonic position kinds operands problem := by
  induction kinds generalizing position operands with
  | nil =>
    constructor
    · intro h
      cases h
    · intro h
      cases h
  | cons kind kinds ih =>
    cases operands with
    | nil =>
      constructor
      · intro h
        cases h
      · intro h
        cases h
    | cons operand operands =>
      rw [fields, bind_eq_error_iff]
      constructor
      · rintro (wrong | ⟨result, first, left⟩)
        · exact .here ((field_eq_error_iff known).mp wrong)
        · rcases bind_eq_error_iff.mp left with wrong | ⟨results, -, returned⟩
          · have suits := (suits_iff known).mpr ⟨result, field_eq_ok_iff.mp first⟩
            exact .later suits (ih.mp wrong)
          · cases returned
      · intro h
        cases h with
        | here wrong => exact .inl ((field_eq_error_iff known).mpr wrong)
        | later suits rest =>
          obtain ⟨result, suited⟩ := (suits_iff known).mp suits
          refine .inr ⟨result, field_eq_ok_iff.mpr suited, ?_⟩
          exact bind_eq_error_iff.mpr (.inl (ih.mpr rest))

theorem forall₂_suits_iff (known : Knows address? labels) {kinds : List OperandKind}
    {operands : List Operand} :
    List.Forall₂ (Suits labels) kinds operands ↔
      ∃ fields, OperandFields address? kinds operands fields := by
  constructor
  · intro h
    induction h with
    | nil => exact ⟨[], .nil⟩
    | cons first rest ih =>
      obtain ⟨field, suited⟩ := (suits_iff known).mp first
      obtain ⟨fields, suited'⟩ := ih
      exact ⟨field :: fields, .cons suited suited'⟩
  · rintro ⟨fields, h⟩
    induction h with
    | nil => exact .nil
    | cons first rest ih => exact .cons ((suits_iff known).mpr ⟨_, first⟩) ih

/-! ## Statements -/

/-- The statement can be encoded in a text with those labels. -/
def Encodable (architecture : Architecture) (labels : List String) (statement : Statement) : Prop :=
  ∃ spec ∈ architecture.specs, spec.mnemonic = normalizeMnemonic statement.mnemonic ∧
    statement.operands.length = spec.arity ∧
    List.Forall₂ (Suits labels) spec.operands statement.operands

/-- The first check that a statement fails: its mnemonic is in the table, it has as many operands as
the entry asks for, and each of them, from left to right, suits its place. -/
inductive StatementProblem (architecture : Architecture) (labels : List String)
    (statement : Statement) : AssemblyProblem → Prop
  | unknownMnemonic
      (unlisted : ∀ spec ∈ architecture.specs,
        spec.mnemonic ≠ normalizeMnemonic statement.mnemonic) :
      StatementProblem architecture labels statement (.unknownMnemonic statement.mnemonic)
  | wrongOperandCount {spec : Spec} (listed : spec ∈ architecture.specs)
      (named : spec.mnemonic = normalizeMnemonic statement.mnemonic)
      (other : statement.operands.length ≠ spec.arity) :
      StatementProblem architecture labels statement
        (.wrongOperandCount spec.mnemonic spec.arity statement.operands.length)
  | operand {spec : Spec} {problem : AssemblyProblem} (listed : spec ∈ architecture.specs)
      (named : spec.mnemonic = normalizeMnemonic statement.mnemonic)
      (arity : statement.operands.length = spec.arity)
      (wrong : FirstProblem labels spec.mnemonic 1 spec.operands statement.operands problem) :
      StatementProblem architecture labels statement problem

theorem exists_encodes_iff (known : Knows address? labels) :
    (∃ instruction, Encodes architecture address? statement instruction) ↔
      Encodable architecture labels statement := by
  simp only [Encodes, Architecture.lookupMnemonic_eq_some_iff]
  constructor
  · rintro ⟨instruction, spec, fields, ⟨listed, named⟩, suited, -⟩
    exact ⟨spec, listed, named, suited.length_eq, (forall₂_suits_iff known).mpr ⟨fields, suited⟩⟩
  · rintro ⟨spec, listed, named, -, suits⟩
    obtain ⟨fields, suited⟩ := (forall₂_suits_iff known).mp suits
    exact ⟨_, spec, fields, ⟨listed, named⟩, suited, rfl⟩

theorem encodeStatement_eq_error_iff (known : Knows symbols.address? labels) :
    encodeStatement architecture symbols statement = .error problem ↔
      StatementProblem architecture labels statement problem := by
  have entry (spec : Spec) :
      architecture.lookupMnemonic statement.mnemonic = some spec ↔
        spec ∈ architecture.specs ∧ spec.mnemonic = normalizeMnemonic statement.mnemonic :=
    Architecture.lookupMnemonic_eq_some_iff
  unfold encodeStatement
  cases found : architecture.lookupMnemonic statement.mnemonic with
  | none =>
    have unlisted (spec : Spec) (listed : spec ∈ architecture.specs) :
        spec.mnemonic ≠ normalizeMnemonic statement.mnemonic := by
      intro named
      cases found.symm.trans ((entry spec).mpr ⟨listed, named⟩)
    constructor
    · intro h
      cases h
      exact .unknownMnemonic unlisted
    · intro h
      cases h with
      | unknownMnemonic _ => rfl
      | wrongOperandCount listed named other => exact absurd named (unlisted _ listed)
      | operand listed named arity wrong => exact absurd named (unlisted _ listed)
  | some spec =>
    have ⟨listed, named⟩ := (entry spec).mp found
    -- There is no other entry of that mnemonic.
    have only {other : Spec} (listed' : other ∈ architecture.specs)
        (named' : other.mnemonic = normalizeMnemonic statement.mnemonic) : other = spec :=
      Option.some.inj (((entry other).mpr ⟨listed', named'⟩).symm.trans found)
    dsimp only
    by_cases arity : statement.operands.length = spec.arity
    · rw [if_neg (not_not_intro arity), map_eq_error_iff, fields_eq_error_iff known]
      constructor
      · exact .operand listed named arity
      · intro h
        cases h with
        | unknownMnemonic unlisted => exact absurd named (unlisted spec listed)
        | wrongOperandCount listed' named' other =>
          cases only listed' named'
          exact absurd arity other
        | operand listed' named' _ wrong =>
          cases only listed' named'
          exact wrong
    · rw [if_pos arity]
      constructor
      · intro h
        cases h
        exact .wrongOperandCount listed named arity
      · intro h
        cases h with
        | unknownMnemonic unlisted => exact absurd named (unlisted spec listed)
        | wrongOperandCount listed' named' other =>
          cases only listed' named'
          rfl
        | operand listed' named' arity' wrong =>
          cases only listed' named'
          exact absurd arity' arity

/-! ## Texts -/

/-- Line `k` holds that statement. -/
def States (texts : List (List Char)) (k : Nat) (statement : Statement) : Prop :=
  ∃ line, Source.Says texts k line ∧ line.statement = some statement

/-- What is reported about a text that consists of those lines: the first line that has a problem,
and if there is none, the first line whose statement cannot be encoded. -/
inductive Reports (architecture : Architecture) (texts : List (List Char)) : AssemblyError → Prop
  | line {k : Nat} {problem : AssemblyProblem} (wrong : Source.LineProblem texts k problem)
      (first : ∀ j < k, ∀ problem, ¬ Source.LineProblem texts j problem) :
      Reports architecture texts ⟨k + 1, problem⟩
  | statement {k : Nat} {statement : Statement} {problem : AssemblyProblem}
      (fine : Source.Fine texts) (there : States texts k statement)
      (wrong : StatementProblem architecture (Source.labelsOf (Source.said texts)) statement
        problem)
      (first : ∀ j < k, ∀ statement, States texts j statement →
        Encodable architecture (Source.labelsOf (Source.said texts)) statement) :
      Reports architecture texts ⟨k + 1, problem⟩

theorem mem_numbered_iff {line : Nat} {lines : List Line} {entry : NumberedStatement} :
    entry ∈ Source.numbered line lines ↔
      ∃ k found, lines[k]? = some found ∧ found.statement = some entry.statement ∧
        entry.line = line + k := by
  induction lines generalizing line with
  | nil => simp [Source.numbered]
  | cons first rest ih =>
    rw [Source.numbered, List.mem_append, ih]
    constructor
    -- The first line is line 0, and line `k` of the rest is line `k + 1`.
    · rintro (here | ⟨k, found, there, stated, number⟩)
      · obtain ⟨statement, stated, rfl⟩ := List.mem_map.mp here
        exact ⟨0, first, rfl, by simpa using stated, rfl⟩
      · exact ⟨k + 1, found, there, stated, number.trans (by omega)⟩
    · rintro ⟨k, found, there, stated, number⟩
      cases k with
      | zero =>
        cases there
        refine .inl (List.mem_map.mpr ⟨entry.statement, by simp [stated], ?_⟩)
        rw [← Nat.add_zero line, ← number]
      | succ k => exact .inr ⟨k, found, there, stated, number.trans (by omega)⟩

theorem sorted_numbered (line : Nat) (lines : List Line) :
    (Source.numbered line lines).Pairwise fun x y => x.line < y.line := by
  induction lines generalizing line with
  | nil => exact .nil
  | cons first rest ih =>
    rw [Source.numbered, List.pairwise_append]
    refine ⟨?_, ih (line + 1), fun x here y later => ?_⟩
    · cases first.statement with
      | none => exact .nil
      | some statement => exact List.pairwise_singleton _ _
    · obtain ⟨statement, -, rfl⟩ := List.mem_map.mp here
      obtain ⟨k, found, -, -, number⟩ := mem_numbered_iff.mp later
      show line < y.line
      omega

theorem encode_eq_error_iff (known : Knows symbols.address? labels) {entry : NumberedStatement}
    {error : AssemblyError} :
    encode architecture symbols entry = .error error ↔
      ∃ problem, StatementProblem architecture labels entry.statement problem ∧
        error = ⟨entry.line, problem⟩ := by
  simp only [← encodeStatement_eq_error_iff known]
  unfold encode
  cases encodeStatement architecture symbols entry.statement with
  | error problem => simp [eq_comm]
  | ok instruction => simp

/-- The second pass reports the first line whose statement cannot be encoded. -/
theorem encode_all_eq_error_iff {texts : List (List Char)} {lines : List Line}
    (parses : texts.map Line.parse = lines.map Except.ok) (known : Knows symbols.address? labels)
    {error : AssemblyError} :
    (Source.numbered 1 lines).mapM (encode architecture symbols) = .error error ↔
      ∃ k statement problem, States texts k statement ∧
        StatementProblem architecture labels statement problem ∧
        (∀ j < k, ∀ statement, States texts j statement →
          Encodable architecture labels statement) ∧
        error = ⟨k + 1, problem⟩ := by
  have entry {x : NumberedStatement} : x ∈ Source.numbered 1 lines ↔
      ∃ k, States texts k x.statement ∧ x.line = k + 1 := by
    simp only [mem_numbered_iff, States, Source.says_iff_getElem? parses, Nat.add_comm 1]
    constructor
    · rintro ⟨k, found, there, stated, number⟩
      exact ⟨k, ⟨found, there, stated⟩, number⟩
    · rintro ⟨k, ⟨found, there, stated⟩, number⟩
      exact ⟨k, found, there, stated, number⟩
  rw [mapM_eq_error_iff_of_sorted (sorted_numbered 1 lines)]
  simp only [encode_eq_error_iff known, encode_eq_ok_iff, exists_encodes_iff known]
  constructor
  · rintro ⟨x, member, ⟨problem, wrong, rfl⟩, earlier⟩
    obtain ⟨k, there, number⟩ := entry.mp member
    rw [number]
    refine ⟨k, x.statement, problem, there, wrong, fun j before statement stated => ?_, rfl⟩
    refine earlier ⟨j + 1, statement⟩ (entry.mpr ⟨j, stated, rfl⟩) ?_
    rw [number]
    exact Nat.succ_lt_succ before
  · rintro ⟨k, statement, problem, there, wrong, earlier, rfl⟩
    refine ⟨⟨k + 1, statement⟩, entry.mpr ⟨k, there, rfl⟩, ⟨problem, wrong, rfl⟩, ?_⟩
    intro y member before
    obtain ⟨j, stated, number⟩ := entry.mp member
    rw [number] at before
    exact earlier j (Nat.lt_of_succ_lt_succ before) y.statement stated

theorem knows_labelAddress? (lines : List Line) :
    Knows (Source.labelAddress? lines) (Source.labelsOf lines) := by
  intro name
  rw [Source.labelAddress?, ← Option.isSome_iff_exists, Option.isSome_map, List.findIdx?_isSome,
    List.any_eq_true, Source.labelsOf, List.mem_filterMap]
  simp only [beq_iff_eq]

theorem exists_encodesAll_iff {lines : List Line} :
    (∃ program, EncodesAll architecture lines program) ↔
      ∀ statement ∈ Source.statementsOf lines,
        Encodable architecture (Source.labelsOf lines) statement := by
  simp only [← exists_encodes_iff (knows_labelAddress? lines)]
  rw [← exists_forall₂_iff]
  constructor
  · rintro ⟨program, encodes⟩
    exact ⟨program.toList, encodes⟩
  · rintro ⟨instructions, encodes⟩
    exact ⟨instructions.toArray, encodes⟩

theorem assemble_eq_error_iff {text : String} {error : AssemblyError} :
    assemble architecture text = .error error ↔
      Source.read text = .error error ∨ ∃ source, Source.read text = .ok source ∧
        source.statements.toList.mapM (encode architecture source.symbols) = .error error := by
  unfold assemble
  simp only [bind_eq_error_iff]
  constructor
  · rintro (failed | ⟨source, read, failed | ⟨instructions, -, returned⟩⟩)
    · exact .inl failed
    · exact .inr ⟨source, read, failed⟩
    · cases returned
  · rintro (failed | ⟨source, read, failed⟩)
    · exact .inl failed
    · exact .inr ⟨source, read, .inl failed⟩

/-- What is reported about a text is what its lines call for. -/
theorem assemble_eq_error_iff_reports {text : String} {error : AssemblyError} :
    assemble architecture text = .error error ↔
      Reports architecture (Text.lines text.toList) error := by
  -- If the first pass accepts the lines, the second looks up their labels.
  have second_pass {source : Source} (read : Source.read text = .ok source) :
      source.statements.toList.mapM (encode architecture source.symbols) = .error error ↔
        ∃ k statement problem, States (Text.lines text.toList) k statement ∧
          StatementProblem architecture (Source.labelsOf (Source.said (Text.lines text.toList)))
            statement problem ∧
          (∀ j < k, ∀ statement, States (Text.lines text.toList) j statement →
            Encodable architecture (Source.labelsOf (Source.said (Text.lines text.toList)))
              statement) ∧
          error = ⟨k + 1, problem⟩ := by
    obtain ⟨lines, parses, acceptable, statements, entries⟩ := Source.read_eq_ok_iff.mp read
    have known : Knows source.symbols.address? (Source.labelsOf lines) := by
      rw [Source.address?_eq_labelAddress? acceptable.distinct entries]
      exact knows_labelAddress? lines
    rw [Source.said_of_parse parses, statements]
    exact encode_all_eq_error_iff parses known
  rw [assemble_eq_error_iff]
  constructor
  · rintro (failed | ⟨source, read, failed⟩)
    · obtain ⟨k, problem, wrong, first, rfl⟩ := Source.read_eq_error_iff.mp failed
      exact .line wrong first
    · obtain ⟨k, statement, problem, there, wrong, first, rfl⟩ := (second_pass read).mp failed
      exact .statement (Source.fine_iff.mpr ⟨source, read⟩) there wrong first
  · intro h
    cases h with
    | line wrong first => exact .inl (Source.read_eq_error_iff.mpr ⟨_, _, wrong, first, rfl⟩)
    | statement fine there wrong first =>
      obtain ⟨source, read⟩ := Source.fine_iff.mp fine
      exact .inr ⟨source, read, (second_pass read).mpr ⟨_, _, _, there, wrong, first, rfl⟩⟩

/-- A text assembles exactly if its lines can be read and are acceptable and all its statements can
be encoded; then there is one instruction for each statement, in their order.  Otherwise the error
is the one that the lines call for. -/
theorem assemble_fails_exactly (architecture : Architecture) (text : String) :
    ((∃ result, assemble architecture text = .ok result) ↔
      ∃ lines, Source.Parses text lines ∧ Source.Acceptable lines ∧
        ∀ statement ∈ Source.statementsOf lines,
          Encodable architecture (Source.labelsOf lines) statement) ∧
    (∀ program, (∃ summary, assemble architecture text = .ok (program, summary)) ↔
      ∃ lines, Source.Parses text lines ∧ Source.Acceptable lines ∧
        program.size = (Source.statementsOf lines).length ∧
        EncodesAll architecture lines program) ∧
    ∀ error, assemble architecture text = .error error ↔
      Reports architecture (Text.lines text.toList) error := by
  refine ⟨?_, ?_, ?_⟩
  · constructor
    · rintro ⟨⟨program, summary⟩, assembled⟩
      obtain ⟨lines, parses, acceptable, encodes⟩ := assemble_eq_ok_iff.mp ⟨summary, assembled⟩
      exact ⟨lines, parses, acceptable, exists_encodesAll_iff.mp ⟨program, encodes⟩⟩
    · rintro ⟨lines, parses, acceptable, encodable⟩
      obtain ⟨program, encodes⟩ := exists_encodesAll_iff.mpr encodable
      obtain ⟨summary, assembled⟩ := assemble_eq_ok_iff.mpr ⟨lines, parses, acceptable, encodes⟩
      exact ⟨(program, summary), assembled⟩
  · intro program
    rw [assemble_eq_ok_iff]
    constructor
    · rintro ⟨lines, parses, acceptable, encodes⟩
      exact ⟨lines, parses, acceptable, encodes.length_eq.symm, encodes⟩
    · rintro ⟨lines, parses, acceptable, -, encodes⟩
      exact ⟨lines, parses, acceptable, encodes⟩
  · intro error
    exact assemble_eq_error_iff_reports

/-- What is wrong with the label of a late line comes before an unknown mnemonic. -/
example : assemble .standard "FOO\n\n; r1\nr1: HLT" = .error ⟨4, .invalidLabel "r1"⟩ := by
  decide +kernel

end Assembler
end Minicomputer
