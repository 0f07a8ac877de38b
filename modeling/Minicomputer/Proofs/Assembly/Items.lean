import Minicomputer.Proofs.Assembly.Encoding

/-!
# What a text is made of

Of all that a text says, the assembler makes use of a sequence of two kinds of things: definitions
of labels, and statements.  Which of them stand on one line, what is between them and how they are
spaced is gone after the first pass.

* `itemsOf` -- the sequence, line by line, the label of a line before its statement;
* `Assembles` -- when there is a program for such a sequence, and which;
* `assemble_eq_ok_iff_assembles` -- the result of assembling a text is that of its sequence.

Warnings are apart: they name lines.
-/

namespace Minicomputer

/-- A part of a text that assembling depends on. -/
inductive Item where
  | label (name : String)
  | statement (statement : Statement)
  deriving DecidableEq, Repr

namespace Item

/-- The label that is defined, if one is. -/
def label? : Item → Option String
  | label name => some name
  | statement _ => none

/-- The statement, if it is one. -/
def statement? : Item → Option Statement
  | label _ => none
  | statement stated => some stated

/-- The labels of a sequence that follows so many statements, each with the number of statements
before it. -/
def addresses (address : Nat) : List Item → List (String × Nat)
  | [] => []
  | label name :: rest => (name, address) :: addresses address rest
  | statement _ :: rest => addresses (address + 1) rest

theorem map_fst_addresses (address : Nat) (items : List Item) :
    (addresses address items).map Prod.fst = items.filterMap label? := by
  induction items generalizing address with
  | nil => rfl
  | cons first rest ih =>
    cases first with
    | label name => exact congrArg (name :: ·) (ih address)
    | statement stated => exact ih (address + 1)

/-- The address of a label, which is that of its first definition. -/
def address? (items : List Item) (name : String) : Option Nat :=
  (addresses 0 items).lookup name

end Item

/-! ## Sequences of lines -/

/-- What a line contributes. -/
def Line.items (line : Line) : List Item :=
  line.label.toList.map .label ++ line.statement.toList.map .statement

namespace Source

/-- The definitions and statements of lines, from top to bottom. -/
def itemsOf (lines : List Line) : List Item :=
  lines.flatMap Line.items

theorem itemsOf_cons (first : Line) (rest : List Line) :
    itemsOf (first :: rest) = first.items ++ itemsOf rest :=
  List.flatMap_cons

theorem filterMap_label?_items (line : Line) :
    line.items.filterMap Item.label? = line.label.toList := by
  obtain ⟨label, statement⟩ := line
  cases label <;> cases statement <;> rfl

theorem filterMap_statement?_items (line : Line) :
    line.items.filterMap Item.statement? = line.statement.toList := by
  obtain ⟨label, statement⟩ := line
  cases label <;> cases statement <;> rfl

theorem labelsOf_eq (lines : List Line) :
    labelsOf lines = (itemsOf lines).filterMap Item.label? := by
  rw [labelsOf, itemsOf, List.filterMap_flatMap, List.filterMap_eq_flatMap_toList]
  simp only [filterMap_label?_items]

theorem statementsOf_eq (lines : List Line) :
    statementsOf lines = (itemsOf lines).filterMap Item.statement? := by
  rw [statementsOf, itemsOf, List.filterMap_flatMap, List.filterMap_eq_flatMap_toList]
  simp only [filterMap_statement?_items]

theorem addresses_items (address : Nat) (line : Line) (rest : List Item) :
    Item.addresses address (line.items ++ rest) =
      line.label.toList.map (·, address) ++
        Item.addresses (address + line.statement.toList.length) rest := by
  obtain ⟨label, statement⟩ := line
  cases label <;> cases statement <;> rfl

theorem labelAddress?_cons (first : Line) (rest : List Line) (name : String) :
    labelAddress? (first :: rest) name =
      if first.label = some name then some 0
      else (labelAddress? rest name).map (first.statement.toList.length + ·) := by
  rw [labelAddress?, List.findIdx?_cons]
  by_cases here : first.label = some name
  · rw [if_pos here, if_pos (beq_iff_eq.mpr here)]
    rfl
  · rw [if_neg here, if_neg (mt beq_iff_eq.mp here), labelAddress?, Option.map_map, Option.map_map]
    exact congrArg (Option.map · _) (funext fun k => statementsBefore_succ k first)

/-- The address of a label is found among the definitions. -/
theorem lookup_addresses (address : Nat) (lines : List Line) (name : String) :
    (Item.addresses address (itemsOf lines)).lookup name =
      (labelAddress? lines name).map (address + ·) := by
  -- The statement of a line moves all later labels on, so the address must be any number.
  induction lines generalizing address with
  | nil => rfl
  | cons first rest ih =>
    have here : (first.label.toList.map (·, address)).lookup name =
        if first.label = some name then some address else none := by
      cases first.label with
      | none => rfl
      | some other =>
        by_cases same : other = name
        · simp [same]
        · have apart : (name == other) = false := beq_false_of_ne (Ne.symm same)
          simp [same, List.lookup_cons, apart]
    rw [itemsOf_cons, addresses_items, List.lookup_append, ih, labelAddress?_cons, here]
    by_cases defines : first.label = some name
    · rw [if_pos defines, if_pos defines, Option.some_or]
      rfl
    · rw [if_neg defines, if_neg defines, Option.none_or, Option.map_map]
      exact congrArg (Option.map · _) (funext fun k => Nat.add_assoc ..)

theorem labelAddress?_eq (lines : List Line) :
    labelAddress? lines = Item.address? (itemsOf lines) := by
  funext name
  rw [Item.address?, lookup_addresses]
  simp only [Nat.zero_add, Option.map_id']

end Source

/-! ## Programs -/

namespace Assembler

/-- A sequence of definitions and statements has that program: every label has one definition and
none looks like a register, there are not more statements than addresses, and every instruction is
that of the statement in its place. -/
structure Assembles (architecture : Architecture) (items : List Item) (program : Program) :
    Prop where
  no_register : ∀ name ∈ items.filterMap Item.label?, Register.number? name.toList = none
  distinct : (items.filterMap Item.label?).Nodup
  fits : (items.filterMap Item.statement?).length ≤ Source.maxStatements
  encoded : List.Forall₂ (Encodes architecture (Item.address? items))
    (items.filterMap Item.statement?) program.toList

theorem assembles_itemsOf_iff {architecture : Architecture} {lines : List Line}
    {program : Program} :
    Assembles architecture (Source.itemsOf lines) program ↔
      Source.Acceptable lines ∧ EncodesAll architecture lines program := by
  rw [EncodesAll, Source.labelAddress?_eq, Source.statementsOf_eq]
  constructor
  · rintro ⟨no_register, distinct, fits, encoded⟩
    rw [← Source.labelsOf_eq] at no_register distinct
    rw [← Source.statementsOf_eq] at fits
    exact ⟨⟨no_register, distinct, fits⟩, encoded⟩
  · rintro ⟨⟨no_register, distinct, fits⟩, encoded⟩
    rw [Source.labelsOf_eq] at no_register distinct
    rw [Source.statementsOf_eq] at fits
    exact ⟨no_register, distinct, fits, encoded⟩

/-- The counts of a summary are those of the program and of the definitions. -/
theorem counts_of_assemble {architecture : Architecture} {text : String} {lines : List Line}
    (parses : Source.Parses text lines) {program : Program} {summary : AssemblySummary}
    (assembled : assemble architecture text = .ok (program, summary)) :
    summary.instructions = program.size ∧ summary.labels = (Source.labelsOf lines).length := by
  unfold assemble at assembled
  obtain ⟨source, read, left⟩ := bind_eq_ok_iff.mp assembled
  obtain ⟨instructions, -, same⟩ := bind_eq_ok_iff.mp left
  cases same
  obtain ⟨lines', parses', -, -, entries⟩ := Source.read_eq_ok_iff.mp read
  obtain rfl := parses'.unique parses
  refine ⟨rfl, ?_⟩
  show source.symbols.entries.length = _
  rw [entries, ← Source.map_fst_labelled 0 1 lines', List.length_map]

/-- The result of assembling a text, apart from warnings, is that of its definitions and
statements. -/
theorem assemble_eq_ok_iff_assembles {architecture : Architecture} {text : String}
    {lines : List Line} (parses : Source.Parses text lines) {program : Program}
    {instructions labels : Nat} :
    (∃ warnings, assemble architecture text = .ok (program, ⟨instructions, labels, warnings⟩)) ↔
      Assembles architecture (Source.itemsOf lines) program ∧ instructions = program.size ∧
        labels = ((Source.itemsOf lines).filterMap Item.label?).length := by
  have somehow : (∃ summary, assemble architecture text = .ok (program, summary)) ↔
      Assembles architecture (Source.itemsOf lines) program := by
    rw [assemble_eq_ok_iff, assembles_itemsOf_iff]
    constructor
    · rintro ⟨lines', parses', acceptable, encodes⟩
      obtain rfl := parses'.unique parses
      exact ⟨acceptable, encodes⟩
    · rintro ⟨acceptable, encodes⟩
      exact ⟨lines, parses, acceptable, encodes⟩
  rw [← somehow, ← Source.labelsOf_eq]
  constructor
  · rintro ⟨warnings, assembled⟩
    have ⟨size, count⟩ := counts_of_assemble parses assembled
    exact ⟨⟨_, assembled⟩, size, count⟩
  · rintro ⟨⟨summary, assembled⟩, size, count⟩
    have ⟨size', count'⟩ := counts_of_assemble parses assembled
    obtain ⟨instructions', labels', warnings⟩ := summary
    dsimp only at size' count'
    subst size count size' count'
    exact ⟨warnings, assembled⟩

end Assembler
end Minicomputer
