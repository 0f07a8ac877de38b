import Mathlib.Data.List.Forall2
import Minicomputer.Assembly.Assembler
import Minicomputer.Proofs.Assembly.FirstPass
import Minicomputer.Proofs.Results

/-!
# What assembles to what

The second pass stops at the first statement that cannot be encoded.  Here it is said without an
order of checks: which operands suit which kinds, which instruction belongs to a statement, and
which program to a text.

* `Encodes` -- an instruction is that of a statement, given the addresses of labels;
* `assemble_eq_ok_iff` -- a text assembles to a program exactly if every instruction is that of the
  statement in its place.

Why a text does not assemble, and what is reported about one that does, is not described here.
-/

namespace Minicomputer
namespace Assembler

/-! ## Operands -/

/-- What an operand puts into the word in a place of that kind. -/
inductive OperandField (address? : String → Option Nat) : OperandKind → Operand → Field → Prop
  | register {number : Nat} (exists_register : number < 16) :
      OperandField address? .register (.register number) (.register ⟨number, exists_register⟩)
  | literal {kind : OperandKind} {value : Int} (immediate : kind ≠ .register)
      (admitted : kind.Admits value) :
      OperandField address? kind (.number value) (.immediate (immediateOf value))
  | label {name : String} {address : Nat} (known : address? name = some address) :
      OperandField address? .address (.label name) (.immediate (UInt16.ofNat address))

/-- What all operands of a statement put into the word. -/
inductive OperandFields (address? : String → Option Nat) :
    List OperandKind → List Operand → List Field → Prop
  | nil : OperandFields address? [] [] []
  | cons {kind : OperandKind} {operand : Operand} {field : Field} {kinds : List OperandKind}
      {operands : List Operand} {fields : List Field}
      (first : OperandField address? kind operand field)
      (rest : OperandFields address? kinds operands fields) :
      OperandFields address? (kind :: kinds) (operand :: operands) (field :: fields)

theorem field_eq_ok_iff {symbols : SymbolTable} {mnemonic : String} {position : Nat}
    {kind : OperandKind} {operand : Operand} {result : Field} :
    field symbols mnemonic position kind operand = .ok result ↔
      OperandField symbols.address? kind operand result := by
  constructor
  · intro h
    -- The cases are those of the definition, in its order.
    unfold field at h
    split at h
    next number =>
      split at h
      next register found =>
        cases h
        unfold Register.ofNumber? at found
        split at found
        next inside =>
          cases found
          exact .register inside
        next => cases found
      next => cases h
    next name =>
      split at h
      next address known =>
        cases h
        exact .label known
      next => cases h
    next => cases h
    next => cases h
    next => cases h
    next kind value immediate =>
      split at h
      next admitted =>
        cases h
        refine .literal ?_ admitted
        rintro rfl
        exact immediate rfl
      next => cases h
  · intro h
    cases h with
    | register inside => simp [field, Register.ofNumber?, inside]
    | literal immediate admitted =>
      -- A number is encoded alike for all kinds but one, which takes no numbers.
      cases kind with
      | register => exact absurd rfl immediate
      | unsigned => simp [field, admitted]
      | signed => simp [field, admitted]
      | address => simp [field, admitted]
    | label known => simp [field, known]

theorem fields_eq_ok_iff {symbols : SymbolTable} {mnemonic : String} {position : Nat}
    {kinds : List OperandKind} {operands : List Operand} {result : List Field}
    (arity : operands.length = kinds.length) :
    fields symbols mnemonic position kinds operands = .ok result ↔
      OperandFields symbols.address? kinds operands result := by
  induction kinds generalizing position operands result with
  | nil =>
    obtain rfl := List.length_eq_zero_iff.mp arity
    constructor
    · intro h
      cases h
      exact .nil
    · intro h
      cases h
      rfl
  | cons kind kinds ih =>
    obtain ⟨operand, operands, rfl⟩ := List.exists_cons_of_length_eq_add_one arity
    have arity' : operands.length = kinds.length := Nat.succ.inj arity
    rw [fields, bind_eq_ok_iff]
    constructor
    · rintro ⟨f, first, left⟩
      obtain ⟨fs, rest, same⟩ := bind_eq_ok_iff.mp left
      cases same
      exact .cons (field_eq_ok_iff.mp first) ((ih arity').mp rest)
    · intro h
      cases h with
      | cons first rest =>
        refine ⟨_, field_eq_ok_iff.mpr first, ?_⟩
        exact bind_eq_ok_iff.mpr ⟨_, (ih arity').mpr rest, rfl⟩

theorem OperandFields.length_eq {address? : String → Option Nat} {kinds : List OperandKind}
    {operands : List Operand} {result : List Field}
    (h : OperandFields address? kinds operands result) : operands.length = kinds.length := by
  induction h with
  | nil => rfl
  | cons first rest ih => exact congrArg (· + 1) ih

/-! ## Statements -/

/-- The instruction is that of the statement. -/
def Encodes (architecture : Architecture) (address? : String → Option Nat) (statement : Statement)
    (instruction : Instruction) : Prop :=
  ∃ spec fields, architecture.lookupMnemonic statement.mnemonic = some spec ∧
    OperandFields address? spec.operands statement.operands fields ∧
    instruction = instructionOf spec.opcode fields

theorem encodeStatement_eq_ok_iff {architecture : Architecture} {symbols : SymbolTable}
    {statement : Statement} {instruction : Instruction} :
    encodeStatement architecture symbols statement = .ok instruction ↔
      Encodes architecture symbols.address? statement instruction := by
  unfold encodeStatement
  cases found : architecture.lookupMnemonic statement.mnemonic with
  | none =>
    constructor
    · intro h
      cases h
    · rintro ⟨spec, fields, listed, -⟩
      rw [found] at listed
      cases listed
  | some spec =>
    dsimp only
    by_cases arity : statement.operands.length = spec.arity
    · rw [if_neg (not_not_intro arity), map_eq_ok_iff]
      constructor
      · rintro ⟨fs, encoded, rfl⟩
        exact ⟨spec, fs, found, (fields_eq_ok_iff arity).mp encoded, rfl⟩
      · rintro ⟨spec', fs, listed, suited, rfl⟩
        cases found.symm.trans listed
        exact ⟨fs, (fields_eq_ok_iff arity).mpr suited, rfl⟩
    · rw [if_pos arity]
      constructor
      · intro h
        cases h
      · rintro ⟨spec', fs, listed, suited, -⟩
        -- Operands that suit the kinds are as many.
        cases found.symm.trans listed
        exact absurd suited.length_eq arity

theorem encode_eq_ok_iff {architecture : Architecture} {symbols : SymbolTable}
    {numbered : NumberedStatement} {instruction : Instruction} :
    encode architecture symbols numbered = .ok instruction ↔
      Encodes architecture symbols.address? numbered.statement instruction := by
  rw [← encodeStatement_eq_ok_iff]
  unfold encode
  cases encodeStatement architecture symbols numbered.statement with
  | error problem => simp
  | ok found => simp only [Except.ok.injEq]

/-! ## Texts -/

/-- The program of acceptable lines. -/
def EncodesAll (architecture : Architecture) (lines : List Line) (program : Program) : Prop :=
  List.Forall₂ (Encodes architecture (Source.labelAddress? lines)) (Source.statementsOf lines)
    program.toList

/-- A text assembles to a program exactly if its lines can be read and are acceptable and every
instruction is that of the statement in its place. -/
theorem assemble_eq_ok_iff {architecture : Architecture} {text : String} {program : Program} :
    (∃ summary, assemble architecture text = .ok (program, summary)) ↔
      ∃ lines, Source.Parses text lines ∧ Source.Acceptable lines ∧
        EncodesAll architecture lines program := by
  -- The second pass looks labels up in the table, which the first pass has filled from the lines.
  have second_pass {source : Source} {lines : List Line} (acceptable : Source.Acceptable lines)
      (statements : source.statements.toList = Source.numbered 1 lines)
      (entries : source.symbols.entries = Source.labelled 0 1 lines) :
      source.statements.toList.mapM (encode architecture source.symbols) = .ok program.toList ↔
        EncodesAll architecture lines program := by
    rw [mapM_eq_ok_iff, EncodesAll, ← Source.map_statement_numbered 1 lines, ← statements,
      List.forall₂_map_left_iff,
      ← Source.address?_eq_labelAddress? acceptable.distinct entries]
    simp only [encode_eq_ok_iff]
  constructor
  · rintro ⟨summary, assembled⟩
    unfold assemble at assembled
    obtain ⟨source, read, left⟩ := bind_eq_ok_iff.mp assembled
    obtain ⟨instructions, encoded, same⟩ := bind_eq_ok_iff.mp left
    cases same
    obtain ⟨lines, parses, acceptable, statements, entries⟩ := Source.read_eq_ok_iff.mp read
    exact ⟨lines, parses, acceptable, (second_pass acceptable statements entries).mp encoded⟩
  · rintro ⟨lines, parses, acceptable, encodes⟩
    obtain ⟨source, read⟩ := Source.exists_read parses acceptable
    obtain ⟨lines', parses', -, statements, entries⟩ := Source.read_eq_ok_iff.mp read
    obtain rfl := parses'.unique parses
    have encoded := (second_pass acceptable statements entries).mpr encodes
    refine ⟨summarize architecture source program, ?_⟩
    unfold assemble
    refine bind_eq_ok_iff.mpr ⟨source, read, ?_⟩
    exact bind_eq_ok_iff.mpr ⟨program.toList, encoded, rfl⟩

end Assembler
end Minicomputer
