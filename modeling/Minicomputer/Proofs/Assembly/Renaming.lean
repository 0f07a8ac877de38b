import Mathlib.Data.List.Nodup
import Mathlib.Logic.Relation
import Minicomputer.Proofs.Architecture
import Minicomputer.Proofs.Assembly.Items
import Minicomputer.Proofs.Assembly.Labels

/-!
# Texts that assemble alike

What a text assembles to is said by its definitions and statements (`Source.itemsOf`), and of these
only up to two things: the case of mnemonics, and what the labels are called.  A label is looked up
by the definition that it names, and renaming it there and wherever it is used finds the same
definition, as long as no two names become one.

* `Item.Renamed` -- the same definition or statement with other names of labels;
* `assembles_renamed_iff` -- sequences of such items have the same programs;
* `Grammar.Relaid` -- a change of layout that keeps the sequence;
* `assembly_depends_on_items` -- two texts, however they are laid out and whatever their labels are
  called.
-/

namespace Minicomputer

/-! ## Other names -/

/-- The operand with another name, if it is a label. -/
def Operand.rename (f : String → String) : Operand → Operand
  | .label name => .label (f name)
  | operand => operand

namespace Item

/-- The same item with other names of labels, and the letters of its mnemonic in any case. -/
inductive Renamed (f : String → String) : Item → Item → Prop
  | label (name : String) : Renamed f (.label name) (.label (f name))
  | statement {stated stated' : Statement}
      (mnemonic : stated.mnemonic.toList.map Char.toUpper =
        stated'.mnemonic.toList.map Char.toUpper)
      (operands : stated'.operands = stated.operands.map (Operand.rename f)) :
      Renamed f (.statement stated) (.statement stated')

/-- The labels that an item defines or uses. -/
def names : Item → List String
  | label name => [name]
  | statement stated => Assembler.labelsUsed stated

end Item

namespace Assembler

variable {architecture : Architecture} {f : String → String} {items items' : List Item}
  {address? address?' : String → Option Nat}

/-! ## One statement -/

theorem OperandField.rename_iff {kind : OperandKind} {operand : Operand} {field : Field}
    (known : ∀ name, operand = .label name → address?' (f name) = address? name) :
    OperandField address?' kind (operand.rename f) field ↔
      OperandField address? kind operand field := by
  cases operand with
  | register number =>
    constructor
    · rintro (inside | _ | _)
      exact .register inside
    · rintro (inside | _ | _)
      exact .register inside
  | number value =>
    constructor
    · rintro (_ | ⟨immediate, admitted⟩ | _)
      exact .literal immediate admitted
    · rintro (_ | ⟨immediate, admitted⟩ | _)
      exact .literal immediate admitted
  | label name =>
    have same := known name rfl
    constructor
    · rintro (_ | _ | found)
      exact .label (same ▸ found)
    · rintro (_ | _ | found)
      exact .label (same.trans found)

theorem OperandFields.rename_iff {kinds : List OperandKind} {operands : List Operand}
    {fields : List Field}
    (known : ∀ name, .label name ∈ operands → address?' (f name) = address? name) :
    OperandFields address?' kinds (operands.map (Operand.rename f)) fields ↔
      OperandFields address? kinds operands fields := by
  induction operands generalizing kinds fields with
  | nil =>
    constructor
    · rintro ⟨⟩
      exact .nil
    · rintro ⟨⟩
      exact .nil
  | cons operand operands ih =>
    have first {kind : OperandKind} {field : Field} :
        OperandField address?' kind (operand.rename f) field ↔
          OperandField address? kind operand field :=
      OperandField.rename_iff fun name same => known name (same ▸ List.mem_cons_self ..)
    have later {kinds : List OperandKind} {fields : List Field} :
        OperandFields address?' kinds (operands.map (Operand.rename f)) fields ↔
          OperandFields address? kinds operands fields :=
      ih fun name member => known name (List.mem_cons_of_mem _ member)
    constructor
    · intro suited
      cases suited with
      | cons here rest => exact .cons (first.mp here) (later.mp rest)
    · intro suited
      cases suited with
      | cons here rest => exact .cons (first.mpr here) (later.mpr rest)

/-- A renamed statement has the same instruction if its labels have the same addresses. -/
theorem encodes_renamed_iff {stated stated' : Statement} {instruction : Instruction}
    (renamed : Item.Renamed f (.statement stated) (.statement stated'))
    (known : ∀ name ∈ labelsUsed stated, address?' (f name) = address? name) :
    Encodes architecture address?' stated' instruction ↔
      Encodes architecture address? stated instruction := by
  cases renamed with
  | statement mnemonic operands =>
    have found : architecture.lookupMnemonic stated'.mnemonic =
        architecture.lookupMnemonic stated.mnemonic := by
      rw [Architecture.lookupMnemonic, Architecture.lookupMnemonic,
        Architecture.normalizeMnemonic_congr mnemonic]
    have suited {kinds : List OperandKind} {fields : List Field} :
        OperandFields address?' kinds (stated.operands.map (Operand.rename f)) fields ↔
          OperandFields address? kinds stated.operands fields :=
      OperandFields.rename_iff fun name member => known name (mem_labelsUsed_iff.mpr member)
    simp only [Encodes, found, operands, suited]

/-! ## Sequences -/

theorem statements_renamed (renamed : List.Forall₂ (Item.Renamed f) items items') :
    List.Forall₂ (fun stated stated' => Item.Renamed f (.statement stated) (.statement stated'))
      (items.filterMap Item.statement?) (items'.filterMap Item.statement?) := by
  induction renamed with
  | nil => exact .nil
  | cons first rest ih =>
    cases first with
    | label name => exact ih
    | statement mnemonic operands => exact .cons (.statement mnemonic operands) ih

theorem addresses_renamed (renamed : List.Forall₂ (Item.Renamed f) items items') (address : Nat) :
    Item.addresses address items' =
      (Item.addresses address items).map fun (name, place) => (f name, place) := by
  induction renamed generalizing address with
  | nil => rfl
  | cons first rest ih =>
    cases first with
    | label name => exact congrArg ((f name, address) :: ·) (ih address)
    | statement mnemonic operands => exact ih (address + 1)

theorem labels_renamed (renamed : List.Forall₂ (Item.Renamed f) items items') :
    items'.filterMap Item.label? = (items.filterMap Item.label?).map f := by
  rw [← Item.map_fst_addresses 0 items', addresses_renamed renamed, List.map_map,
    ← Item.map_fst_addresses 0 items, List.map_map]
  rfl

/-- Renaming does not find another entry, unless another name becomes the one that is looked up. -/
theorem lookup_rename {entries : List (String × Nat)} {name : String}
    (apart : ∀ other ∈ entries.map Prod.fst, f other = f name → other = name) :
    (entries.map fun (other, place) => (f other, place)).lookup (f name) = entries.lookup name := by
  induction entries with
  | nil => rfl
  | cons entry rest ih =>
    rw [List.map_cons, List.forall_mem_cons] at apart
    have later := ih apart.2
    obtain ⟨other, place⟩ := entry
    rw [List.map_cons, List.lookup_cons, List.lookup_cons]
    by_cases same : name = other
    · rw [same]
      simp
    · have apart' : (f name == f other) = false :=
        beq_false_of_ne fun equal => same (apart.1 equal.symm).symm
      rw [apart', beq_false_of_ne same]
      exact later

/-- Lists whose elements correspond are related to the same third list. -/
theorem forall₂_congr_of_forall₂ {α α' β : Type} {R : α → α' → Prop} {P : α → β → Prop}
    {P' : α' → β → Prop} (same : ∀ x x', R x x' → ∀ y, P' x' y ↔ P x y) {xs : List α}
    {xs' : List α'} (related : List.Forall₂ R xs xs') {ys : List β} :
    List.Forall₂ P' xs' ys ↔ List.Forall₂ P xs ys := by
  induction related generalizing ys with
  | nil => rw [List.forall₂_nil_left_iff, List.forall₂_nil_left_iff]
  | cons first rest ih =>
    cases ys with
    | nil => simp
    | cons y ys => rw [List.forall₂_cons, List.forall₂_cons, same _ _ first, ih]

theorem mem_names_of_label {name : String} (defined : name ∈ items.filterMap Item.label?) :
    name ∈ items.flatMap Item.names := by
  obtain ⟨item, member, found⟩ := List.mem_filterMap.mp defined
  cases item with
  | label other =>
    cases found
    exact List.mem_flatMap.mpr ⟨_, member, List.mem_singleton_self _⟩
  | statement stated => cases found

theorem mem_names_of_used {stated : Statement} {name : String}
    (member : stated ∈ items.filterMap Item.statement?) (used : name ∈ labelsUsed stated) :
    name ∈ items.flatMap Item.names := by
  obtain ⟨item, inside, found⟩ := List.mem_filterMap.mp member
  cases item with
  | label other => cases found
  | statement stated' =>
    cases found
    exact List.mem_flatMap.mpr ⟨_, inside, used⟩

section

variable (renamed : List.Forall₂ (Item.Renamed f) items items')
  (injective : ∀ a ∈ items.flatMap Item.names, ∀ b ∈ items.flatMap Item.names, f a = f b → a = b)

include renamed injective

theorem address?_renamed {name : String} (member : name ∈ items.flatMap Item.names) :
    Item.address? items' (f name) = Item.address? items name := by
  rw [Item.address?, addresses_renamed renamed]
  apply lookup_rename
  intro other defined same
  rw [Item.map_fst_addresses] at defined
  exact injective other (mem_names_of_label defined) name member same

/-- Sequences that differ in the names of labels have the same programs. -/
theorem assembles_renamed_iff {program : Program}
    (register : ∀ name ∈ items.filterMap Item.label?,
      Register.number? (f name).toList = none ↔ Register.number? name.toList = none) :
    Assembles architecture items' program ↔ Assembles architecture items program := by
  have labels := labels_renamed renamed
  have statements := statements_renamed renamed
  have distinct : (items'.filterMap Item.label?).Nodup ↔ (items.filterMap Item.label?).Nodup := by
    rw [labels]
    constructor
    · exact List.Nodup.of_map f
    · intro nodup
      refine nodup.map_on ?_
      intro a memberA b memberB
      exact injective a (mem_names_of_label memberA) b (mem_names_of_label memberB)
  have encoded : List.Forall₂ (Encodes architecture (Item.address? items'))
        (items'.filterMap Item.statement?) program.toList ↔
      List.Forall₂ (Encodes architecture (Item.address? items))
        (items.filterMap Item.statement?) program.toList := by
    -- Every statement is one of the sequence, so the addresses of its labels are known.
    have paired := (List.forall₂_and_left _ _).mpr ⟨fun _ member => member, statements⟩
    refine forall₂_congr_of_forall₂ ?_ paired
    rintro stated stated' ⟨member, same⟩ instruction
    apply encodes_renamed_iff same
    intro name used
    exact address?_renamed renamed injective (mem_names_of_used member used)
  have no_register : (∀ name ∈ items'.filterMap Item.label?, Register.number? name.toList = none) ↔
      ∀ name ∈ items.filterMap Item.label?, Register.number? name.toList = none := by
    rw [labels, List.forall_mem_map]
    exact forall₂_congr register
  constructor
  · intro assembles
    refine ⟨no_register.mp assembles.no_register, distinct.mp assembles.distinct, ?_,
      encoded.mp assembles.encoded⟩
    rw [statements.length_eq]
    exact assembles.fits
  · intro assembles
    refine ⟨no_register.mpr assembles.no_register, distinct.mpr assembles.distinct, ?_,
      encoded.mpr assembles.encoded⟩
    rw [← statements.length_eq]
    exact assembles.fits

end

theorem renamed_id (items : List Item) : List.Forall₂ (Item.Renamed id) items items := by
  have unchanged : Operand.rename id = id := by
    funext operand
    cases operand with
    | register number => rfl
    | number value => rfl
    | label name => rfl
  refine List.forall₂_same.mpr fun item _ => ?_
  cases item with
  | label name => exact .label name
  | statement stated => exact .statement rfl (by rw [unchanged, List.map_id])

end Assembler

/-! ## Layout -/

namespace Grammar

/-- A change of layout in one place: a line is spaced or commented differently, a line that says
nothing is put in, or a label gets a line of its own. -/
inductive Relaid : List Line → List Line → Prop
  | respaced {tree tree' : Line} (same : tree.line = tree'.line) (before after : List Line) :
      Relaid (before ++ tree :: after) (before ++ tree' :: after)
  | blank {tree : Line} (no_label : tree.label = none) (no_statement : tree.statement = none)
      (before after : List Line) :
      Relaid (before ++ after) (before ++ tree :: after)
  | ownLine {tree labelled stated : Line} (label : labelled.line.label = tree.line.label)
      (no_statement : labelled.statement = none) (no_label : stated.label = none)
      (statement : stated.line.statement = tree.line.statement) (before after : List Line) :
      Relaid (before ++ tree :: after) (before ++ labelled :: stated :: after)

/-- What lines of the grammar say, from top to bottom. -/
def itemsOf (trees : List Line) : List Item :=
  Source.itemsOf (trees.map Line.line)

theorem itemsOf_append (before after : List Line) :
    itemsOf (before ++ after) = itemsOf before ++ itemsOf after := by
  rw [itemsOf, List.map_append, Source.itemsOf, List.flatMap_append]
  rfl

theorem itemsOf_cons (tree : Line) (after : List Line) :
    itemsOf (tree :: after) = tree.line.items ++ itemsOf after :=
  List.flatMap_cons

theorem Relaid.itemsOf_eq {trees trees' : List Line} (relaid : Relaid trees trees') :
    itemsOf trees = itemsOf trees' := by
  cases relaid with
  | respaced same before after =>
    rw [itemsOf_append, itemsOf_append, itemsOf_cons, itemsOf_cons, same]
  | @blank tree no_label no_statement before after =>
    have silent : tree.line.items = [] := by
      rw [Minicomputer.Line.items, Line.line, no_label, no_statement]
      rfl
    rw [itemsOf_append, itemsOf_append, itemsOf_cons, silent, List.nil_append]
  | @ownLine tree labelled stated label no_statement no_label statement before after =>
    have noStatement : labelled.line.statement = none := by rw [Line.line, no_statement]; rfl
    have noLabel : stated.line.label = none := by rw [Line.line, no_label]; rfl
    have split : tree.line.items = labelled.line.items ++ stated.line.items := by
      simp [Minicomputer.Line.items, noStatement, noLabel, label, statement]
    rw [itemsOf_append, itemsOf_append, itemsOf_cons, itemsOf_cons, itemsOf_cons, split,
      List.append_assoc]

theorem itemsOf_eq_of_eqvGen {trees trees' : List Line}
    (relaid : Relation.EqvGen Relaid trees trees') : itemsOf trees = itemsOf trees' := by
  induction relaid with
  | rel _ _ once => exact once.itemsOf_eq
  | refl _ => rfl
  | symm _ _ _ ih => exact ih.symm
  | trans _ _ _ _ _ ih ih' => exact ih.trans ih'

end Grammar

/-! ## Texts -/

namespace Assembler

/-- One text assembles exactly if the other does, to the same program and with the same counts. -/
def AssembleAlike (architecture : Architecture) (text text' : String) : Prop :=
  ∀ program instructions labels,
    (∃ warnings, assemble architecture text = .ok (program, ⟨instructions, labels, warnings⟩)) ↔
      ∃ warnings, assemble architecture text' = .ok (program, ⟨instructions, labels, warnings⟩)

theorem assembleAlike_of_renamed {architecture : Architecture} {text text' : String}
    {lines lines' : List Line} {f : String → String} (parses : Source.Parses text lines)
    (parses' : Source.Parses text' lines')
    (renamed : List.Forall₂ (Item.Renamed f) (Source.itemsOf lines) (Source.itemsOf lines'))
    (injective : ∀ a ∈ (Source.itemsOf lines).flatMap Item.names,
      ∀ b ∈ (Source.itemsOf lines).flatMap Item.names, f a = f b → a = b)
    (register : ∀ name ∈ Source.labelsOf lines,
      Register.number? (f name).toList = none ↔ Register.number? name.toList = none) :
    AssembleAlike architecture text text' := by
  intro program instructions labels
  rw [Source.labelsOf_eq] at register
  have count : ((Source.itemsOf lines').filterMap Item.label?).length =
      ((Source.itemsOf lines).filterMap Item.label?).length := by
    rw [labels_renamed renamed, List.length_map]
  rw [assemble_eq_ok_iff_assembles parses, assemble_eq_ok_iff_assembles parses', count,
    assembles_renamed_iff renamed injective register]

theorem assembleAlike_of_relaid {architecture : Architecture} {text text' : String}
    {trees trees' : List Grammar.Line}
    (texts : Text.lines text.toList = trees.map Grammar.Line.text)
    (texts' : Text.lines text'.toList = trees'.map Grammar.Line.text)
    (relaid : Relation.EqvGen Grammar.Relaid trees trees') :
    AssembleAlike architecture text text' := by
  have parses := Source.parses_iff_exists_trees.mpr ⟨trees, texts, rfl⟩
  have parses' := Source.parses_iff_exists_trees.mpr ⟨trees', texts', rfl⟩
  have items : Source.itemsOf (trees.map Grammar.Line.line) =
      Source.itemsOf (trees'.map Grammar.Line.line) := Grammar.itemsOf_eq_of_eqvGen relaid
  have renamed := renamed_id (Source.itemsOf (trees.map Grammar.Line.line))
  nth_rewrite 2 [items] at renamed
  exact assembleAlike_of_renamed parses parses' renamed (fun _ _ _ _ => id) fun _ _ => Iff.rfl

/-- Two texts whose definitions and statements are the same, apart from the case of mnemonics and
the names of labels, assemble alike: to the same program with the same counts, or not at all.
Renaming must not make two names one, nor tell a register from a label differently.  So spacing,
comments, lines that say nothing and lines of their own for labels make no difference, and a
carriage return before every line feed changes nothing whatever. -/
theorem assembly_depends_on_items (architecture : Architecture) :
    (∀ (text text' : String) (lines lines' : List Line) (f : String → String),
      Source.Parses text lines → Source.Parses text' lines' →
      List.Forall₂ (Item.Renamed f) (Source.itemsOf lines) (Source.itemsOf lines') →
      (∀ a ∈ (Source.itemsOf lines).flatMap Item.names,
        ∀ b ∈ (Source.itemsOf lines).flatMap Item.names, f a = f b → a = b) →
      (∀ name ∈ Source.labelsOf lines,
        Register.number? (f name).toList = none ↔ Register.number? name.toList = none) →
      AssembleAlike architecture text text') ∧
    (∀ (text text' : String) (trees trees' : List Grammar.Line),
      Text.lines text.toList = trees.map Grammar.Line.text →
      Text.lines text'.toList = trees'.map Grammar.Line.text →
      Relation.EqvGen Grammar.Relaid trees trees' → AssembleAlike architecture text text') ∧
    (∀ text : String, '\r' ∉ text.toList →
      assemble architecture (String.ofList (Text.withReturns text.toList)) =
        assemble architecture text) := by
  refine ⟨?_, ?_, ?_⟩
  · intro text text' lines lines' f parses parses' renamed injective register
    exact assembleAlike_of_renamed parses parses' renamed injective register
  · intro text text' trees trees' texts texts' relaid
    exact assembleAlike_of_relaid texts texts' relaid
  · intro text noReturn
    have same : Source.read (String.ofList (Text.withReturns text.toList)) = Source.read text := by
      rw [Source.read, Source.read, String.toList_ofList, Text.lines_withReturns noReturn]
    rw [assemble, assemble, same]

/-- In the second text labels have lines of their own and other names, and capitals, comments and
blank lines come in. -/
theorem assembly_depends_on_items_loop :
    AssembleAlike .standard "loop: ldi r1, 16\njmp loop\nend: hlt"
      "; again\r\nstart:\r\n\tLDI R1,0x10 ; sixteen\r\n\r\n JMP start\r\nstop:\r\nHLT" := by
  have parses : Source.Parses "loop: ldi r1, 16\njmp loop\nend: hlt"
      [⟨some "loop", some ⟨"ldi", [.register 1, .number 16]⟩⟩,
        ⟨none, some ⟨"jmp", [.label "loop"]⟩⟩, ⟨some "end", some ⟨"hlt", []⟩⟩] :=
    Source.parses_of_toOption (by decide +kernel)
  have parses' : Source.Parses
      "; again\r\nstart:\r\n\tLDI R1,0x10 ; sixteen\r\n\r\n JMP start\r\nstop:\r\nHLT"
      [⟨none, none⟩, ⟨some "start", none⟩,
        ⟨none, some ⟨"LDI", [.register 1, .number 16]⟩⟩, ⟨none, none⟩,
        ⟨none, some ⟨"JMP", [.label "start"]⟩⟩, ⟨some "stop", none⟩,
        ⟨none, some ⟨"HLT", []⟩⟩] :=
    Source.parses_of_toOption (by decide +kernel)
  refine (assembly_depends_on_items .standard).1 _ _ _ _
    (fun name => if name = "loop" then "start" else "stop") parses parses' ?_ ?_ ?_
  · exact .cons (.label "loop") (.cons (.statement (by decide +kernel) rfl)
      (.cons (.statement (by decide +kernel) rfl)
        (.cons (.label "end") (.cons (.statement (by decide +kernel) rfl) .nil))))
  · decide +kernel
  · decide +kernel

end Assembler
end Minicomputer
