import Minicomputer.Proofs.Architecture.Definitions

/-!
# The indexed table

A table is kept as a list of entries, and to look something up is to search it.  A processor that
decodes in one step keeps more: the entries in full, an index between mnemonics and opcodes that is
read both ways, and the position of the entry of each opcode.  `Catalogue` is that table, extended
one definition at a time in all three places.

It is the list, indexed: `Catalogue.ofDefinitions_eq` says that the same definitions make both or
that both complain alike, and `lookupOpcode_of` and `lookupMnemonic_of` say that the same is found
in both.
-/

namespace Minicomputer

/-! ## Layout -/

/-- An entry in full, with everything that its definition declares. -/
structure CatalogueEntry where
  mnemonic : String
  opcode : UInt8
  operands : List OperandKind
  operation : Operation
  name : String
  description : String
  deriving DecidableEq, Repr

namespace CatalogueEntry

/-- The entry of the list in full. -/
def ofSpec (spec : Spec) : CatalogueEntry where
  mnemonic := spec.mnemonic
  opcode := spec.opcode
  operands := spec.operands
  operation := spec.operation
  name := spec.name
  description := spec.description

end CatalogueEntry

/-- Entries in the order they are listed, mnemonics with their opcodes, and for each opcode the
position of its entry. -/
@[ext]
structure Catalogue where
  entries : Array CatalogueEntry
  index : List (String × UInt8)
  positions : Array (Option Nat)
  deriving DecidableEq, Repr

namespace Catalogue

/-- The table without entries.  It has a place for the position of every opcode. -/
def empty : Catalogue where
  entries := #[]
  index := []
  positions := Array.replicate 256 none

/-- The index from mnemonics to opcodes. -/
def opcodeOf? (catalogue : Catalogue) (mnemonic : String) : Option UInt8 :=
  (catalogue.index.find? (·.1 == mnemonic)).map Prod.snd

/-- The index from opcodes to mnemonics. -/
def mnemonicOf? (catalogue : Catalogue) (opcode : UInt8) : Option String :=
  (catalogue.index.find? (·.2 == opcode)).map Prod.fst

/-- The entry at the position of the opcode. -/
def lookupOpcode (catalogue : Catalogue) (opcode : UInt8) : Option CatalogueEntry :=
  catalogue.positions[opcode.toNat]?.join.bind fun position => catalogue.entries[position]?

/-- The entry of the opcode that the mnemonic has, whatever its case. -/
def lookupMnemonic (catalogue : Catalogue) (mnemonic : String) : Option CatalogueEntry :=
  (catalogue.opcodeOf? (normalizeMnemonic mnemonic)).bind catalogue.lookupOpcode

/-! ## Building -/

/-- Checks a definition against the entries so far.  That mnemonic and opcode are new is asked of
the index. -/
def check (catalogue : Catalogue) (definition : Definition) :
    Except ArchitectureError CatalogueEntry :=
  let mnemonic := normalizeMnemonic definition.mnemonic
  if mnemonic = "" then
    .error (.missingField definition.opcode .mnemonic)
  else if Text.trim definition.name = "" then
    .error (.missingField definition.opcode .name)
  else if (catalogue.opcodeOf? mnemonic).isSome then
    .error (.duplicateMnemonic mnemonic)
  else match catalogue.mnemonicOf? definition.opcode with
    | some first => .error (.duplicateOpcode definition.opcode first mnemonic)
    | none =>
      if ¬ definition.FitsWord then
        .error (.operandLayout mnemonic definition.opcode)
      else match Operation.ofMnemonic? mnemonic with
        | none => .error (.unknownOperation mnemonic)
        | some operation =>
          if operation.code ≠ definition.opcode then
            .error (.opcodeMismatch mnemonic definition.opcode operation.code)
          else if definition.operands ≠ operation.operands then
            .error (.operandMismatch mnemonic definition.operands operation.operands)
          else
            .ok ⟨mnemonic, definition.opcode, definition.operands, operation, definition.name,
              definition.description⟩

/-- The table with one more entry at its end. -/
def insert (catalogue : Catalogue) (entry : CatalogueEntry) : Catalogue where
  entries := catalogue.entries.push entry
  index := catalogue.index ++ [(entry.mnemonic, entry.opcode)]
  positions := catalogue.positions.setIfInBounds entry.opcode.toNat (some catalogue.entries.size)

/-- The table with one more definition, if it is admitted. -/
def add (catalogue : Catalogue) (definition : Definition) : Except ArchitectureError Catalogue :=
  (catalogue.check definition).map catalogue.insert

/-- The table of a list of definitions, or what is wrong with the first one that is not admitted. -/
def ofDefinitions (definitions : List Definition) : Except ArchitectureError Catalogue :=
  definitions.foldlM add empty

/-! ## The list, indexed -/

/-- The list with all its indices. -/
def of (architecture : Architecture) : Catalogue where
  entries := (architecture.specs.map CatalogueEntry.ofSpec).toArray
  index := architecture.specs.map fun spec => (spec.mnemonic, spec.opcode)
  positions := Array.ofFn fun place : Fin 256 =>
    architecture.specs.findIdx? fun spec => spec.opcode.toNat == place.val

variable {architecture : Architecture} {definition : Definition} {spec : Spec}

theorem getElem?_positions_of (architecture : Architecture) (place : Nat) :
    (of architecture).positions[place]? =
      if place < 256 then some (architecture.specs.findIdx? fun spec => spec.opcode.toNat == place)
      else none := by
  rw [of, Array.getElem?_ofFn]
  split <;> rfl

theorem positions_of (architecture : Architecture) (opcode : UInt8) :
    (of architecture).positions[opcode.toNat]? =
      some (architecture.specs.findIdx? fun spec => spec.opcode == opcode) := by
  have alike (spec : Spec) : (spec.opcode.toNat == opcode.toNat) = (spec.opcode == opcode) := by
    rw [Bool.eq_iff_iff, beq_iff_eq, beq_iff_eq, UInt8.toNat_inj]
  rw [getElem?_positions_of, if_pos opcode.toNat_lt]
  simp only [alike]

theorem opcodeOf?_of (architecture : Architecture) (mnemonic : String) :
    (of architecture).opcodeOf? mnemonic =
      (architecture.specs.find? (·.mnemonic == mnemonic)).map Spec.opcode := by
  simp only [opcodeOf?, of, List.find?_map, Option.map_map]
  rfl

theorem mnemonicOf?_of (architecture : Architecture) (opcode : UInt8) :
    (of architecture).mnemonicOf? opcode =
      (architecture.lookupOpcode opcode).map Spec.mnemonic := by
  simp only [mnemonicOf?, of, List.find?_map, Option.map_map]
  rfl

/-- What is found at the position of an opcode is what a search for the opcode finds. -/
theorem lookupOpcode_of (architecture : Architecture) (opcode : UInt8) :
    (of architecture).lookupOpcode opcode =
      (architecture.lookupOpcode opcode).map CatalogueEntry.ofSpec := by
  have entries (position : Nat) :
      (of architecture).entries[position]? =
        architecture.specs[position]?.map CatalogueEntry.ofSpec := by
    simp [of]
  rw [lookupOpcode, positions_of, Architecture.lookupOpcode,
    List.find?_eq_bind_findIdx?_getElem?]
  simp only [Option.join_some, entries, Option.map_bind]
  rfl

theorem lookupMnemonic_of (architecture : Architecture) (mnemonic : String) :
    (of architecture).lookupMnemonic mnemonic =
      (architecture.lookupMnemonic mnemonic).map CatalogueEntry.ofSpec := by
  rw [lookupMnemonic, opcodeOf?_of]
  change ((architecture.lookupMnemonic mnemonic).map Spec.opcode).bind _ = _
  cases found : architecture.lookupMnemonic mnemonic with
  | none => rfl
  | some spec =>
    have listed := (Architecture.lookupMnemonic_eq_some_iff.mp found).1
    have found' := Architecture.lookupOpcode_eq_some_iff.mpr ⟨listed, rfl⟩
    rw [Option.map_some, Option.bind_some, lookupOpcode_of, found']

theorem of_empty : of .empty = empty := by
  have positions : (of .empty).positions = Array.replicate 256 none := by
    apply Array.ext
    · simp [of]
    · intro place inRange inRange'
      simp [of, Architecture.empty]
  exact Catalogue.ext rfl rfl positions

theorem isSome_opcodeOf?_of (architecture : Architecture) (mnemonic : String) :
    ((of architecture).opcodeOf? mnemonic).isSome ↔
      ∃ spec ∈ architecture.specs, spec.mnemonic = mnemonic := by
  rw [opcodeOf?_of, Option.isSome_map, List.find?_isSome]
  simp only [beq_iff_eq]

/-- Both tables make the same checks. -/
theorem check_of (architecture : Architecture) (definition : Definition) :
    (of architecture).check definition =
      (architecture.check definition).map fun admitted => .ofSpec admitted.val := by
  have mnemonics := isSome_opcodeOf?_of architecture (normalizeMnemonic definition.mnemonic)
  have opcodes := mnemonicOf?_of architecture definition.opcode
  unfold check Architecture.check
  dsimp only
  split
  next blank => rfl
  next written =>
  split
  next noName => rfl
  next name =>
  rw [if_congr mnemonics rfl rfl]
  split
  next listed => rfl
  next fresh =>
  rw [opcodes]
  cases architecture.lookupOpcode definition.opcode with
  | some first => rfl
  | none =>
  dsimp only [Option.map_none]
  split
  next unfit => rfl
  next fits =>
  -- The other side knows more about the operation and is taken apart first.
  symm
  split
  next unknown =>
    simp only [unknown]
    rfl
  next operation known =>
  simp only [known]
  split
  next other => rw [if_pos other.symm]; rfl
  next same =>
  have code := not_not.mp same
  rw [if_neg (not_not.mpr code.symm)]
  split
  next other => rfl
  next same =>
    have operands := not_not.mp same
    have mnemonic := Operation.ofMnemonic?_eq_some_iff.mp known
    show Except.ok (CatalogueEntry.ofSpec ⟨operation, definition.name, definition.description⟩) = _
    rw [code, operands, ← mnemonic]
    rfl

/-- Nothing is at the place of an opcode before its entry is added. -/
theorem findIdx?_opcode_of_fresh (fresh : spec.operation ∉ architecture.specs.map Spec.operation) :
    architecture.specs.findIdx? (fun earlier => earlier.opcode.toNat == spec.opcode.toNat) =
      none := by
  rw [List.findIdx?_eq_none_iff]
  intro earlier listed
  refine beq_false_of_ne fun same => fresh (List.mem_map.mpr ⟨earlier, listed, ?_⟩)
  exact Operation.code_injective (UInt8.toNat_inj.mp same)

theorem of_insert (fresh : spec.operation ∉ architecture.specs.map Spec.operation) :
    of (architecture.insert spec fresh) = (of architecture).insert (.ofSpec spec) := by
  refine Catalogue.ext ?_ ?_ (Array.ext_getElem? fun place => ?_)
  · simp [of, Architecture.insert, insert]
  · simp [of, Architecture.insert, insert, CatalogueEntry.ofSpec]
  · have size : (of architecture).positions.size = 256 := by simp [of]
    have last : (of architecture).entries.size = architecture.specs.length := by simp [of]
    rw [insert, getElem?_positions_of, Array.getElem?_setIfInBounds, getElem?_positions_of, size,
      last, Architecture.insert, List.findIdx?_append]
    change _ = if spec.opcode.toNat = place then _ else _
    by_cases here : spec.opcode.toNat = place
    · subst here
      simp only [findIdx?_opcode_of_fresh fresh, Option.none_or, List.findIdx?_singleton,
        beq_self_eq_true, if_true, Option.map_some, Nat.zero_add]
      rfl
    · simp [here]

theorem add_of (architecture : Architecture) (definition : Definition) :
    (of architecture).add definition = (architecture.add definition).map of := by
  rw [add, check_of, Architecture.add]
  cases architecture.check definition with
  | error problem => rfl
  | ok admitted => exact congrArg Except.ok (of_insert admitted.property).symm

/-- The same definitions make both tables, or both complain alike. -/
theorem ofDefinitions_eq (definitions : List Definition) :
    ofDefinitions definitions = (Architecture.ofDefinitions definitions).map of := by
  rw [ofDefinitions, ← of_empty]
  exact foldlM_map add_of definitions .empty

/-! ## What the indices say -/

/-- The indices agree with the entries of a table and with one another. -/
structure Indexes (catalogue : Catalogue) (table : Architecture) : Prop where
  entries : catalogue.entries.toList = table.specs.map CatalogueEntry.ofSpec
  byOpcode : ∀ opcode, catalogue.lookupOpcode opcode =
    (table.lookupOpcode opcode).map CatalogueEntry.ofSpec
  byMnemonic : ∀ mnemonic, catalogue.lookupMnemonic mnemonic =
    (table.lookupMnemonic mnemonic).map CatalogueEntry.ofSpec
  opcodeOf : ∀ mnemonic opcode, catalogue.opcodeOf? mnemonic = some opcode ↔
    ∃ spec ∈ table.specs, spec.mnemonic = mnemonic ∧ spec.opcode = opcode
  mnemonicOf : ∀ mnemonic opcode, catalogue.mnemonicOf? opcode = some mnemonic ↔
    ∃ spec ∈ table.specs, spec.mnemonic = mnemonic ∧ spec.opcode = opcode
  places : catalogue.positions.size = 256
  position : ∀ (opcode : UInt8) position,
    catalogue.positions[opcode.toNat]? = some (some position) ↔
      ∃ spec, table.specs[position]? = some spec ∧ spec.opcode = opcode

theorem findIdx?_opcode_eq_some_iff {opcode : UInt8} {position : Nat} :
    architecture.specs.findIdx? (·.opcode == opcode) = some position ↔
      ∃ spec, architecture.specs[position]? = some spec ∧ spec.opcode = opcode := by
  rw [List.findIdx?_eq_some_iff_getElem]
  constructor
  · rintro ⟨inRange, same, -⟩
    exact ⟨_, List.getElem?_eq_getElem inRange, beq_iff_eq.mp same⟩
  · rintro ⟨spec, found, rfl⟩
    obtain ⟨inRange, rfl⟩ := List.getElem?_eq_some_iff.mp found
    refine ⟨inRange, beq_self_eq_true _, fun earlier before same => ?_⟩
    -- An earlier entry of the same opcode would be of the same operation.
    have operations := Operation.code_injective (beq_iff_eq.mp same)
    have distinct := List.nodup_iff_getElem?_ne_getElem?.mp architecture.nodup earlier position
      before (by simpa using inRange)
    refine distinct ?_
    rw [List.getElem?_map, List.getElem?_map,
      List.getElem?_eq_getElem (Nat.lt_trans before inRange), List.getElem?_eq_getElem inRange]
    exact congrArg some operations

theorem indexes_of (architecture : Architecture) : (of architecture).Indexes architecture where
  entries := by simp [of]
  byOpcode := lookupOpcode_of architecture
  byMnemonic := lookupMnemonic_of architecture
  opcodeOf mnemonic opcode := by
    have found (spec : Spec) :
        architecture.specs.find? (·.mnemonic == mnemonic) = some spec ↔
          spec ∈ architecture.specs ∧ spec.mnemonic = mnemonic :=
      Architecture.find?_eq_some_iff_of_key fun _ _ same => Operation.mnemonic_injective same
    simp only [opcodeOf?_of, Option.map_eq_some_iff, found, and_assoc]
  mnemonicOf mnemonic opcode := by
    simp only [mnemonicOf?_of, Option.map_eq_some_iff, Architecture.lookupOpcode_eq_some_iff,
      and_assoc, and_comm (a := Spec.mnemonic _ = _)]
  places := by simp [of]
  position opcode position := by
    rw [positions_of, Option.some_inj, findIdx?_opcode_eq_some_iff]

end Catalogue

/-! ## Tables from definitions -/

namespace Architecture

open Definition

/-- Consistent definitions, and no others, make a table.  So their order does not matter for whether
they do, and some of them make a table if all do.  The table has one entry for each of them, in
their order, and all its indices lead to the only entry that has the key.  What is wrong with other
definitions is the first complaint of the first that is not admitted behind those before it. -/
theorem ofDefinitions_exact (definitions : List Definition) :
    ((∃ table, ofDefinitions definitions = .ok table) ↔ Consistent definitions) ∧
    (∀ others, others.Perm definitions →
      ((∃ table, ofDefinitions others = .ok table) ↔
        ∃ table, ofDefinitions definitions = .ok table)) ∧
    (∀ others, others.Sublist definitions →
      (∃ table, ofDefinitions definitions = .ok table) →
        ∃ table, ofDefinitions others = .ok table) ∧
    (∀ table, ofDefinitions definitions = .ok table →
      List.Forall₂ Presents definitions table.specs ∧
      (∀ opcode spec, table.lookupOpcode opcode = some spec ↔
        spec ∈ table.specs ∧ spec.opcode = opcode) ∧
      (∀ mnemonic spec, table.lookupMnemonic mnemonic = some spec ↔
        spec ∈ table.specs ∧ spec.mnemonic = normalizeMnemonic mnemonic) ∧
      (∀ spec ∈ table.specs, table.lookupOpcode spec.opcode = some spec ∧
        table.lookupMnemonic spec.mnemonic = some spec ∧
        spec.opcode = spec.operation.code ∧ spec.operands = spec.operation.operands) ∧
      ∃ catalogue, Catalogue.ofDefinitions definitions = .ok catalogue ∧
        catalogue.Indexes table) ∧
    ∀ problem, (ofDefinitions definitions = .error problem ↔
        ∃ before definition after, definitions = before ++ definition :: after ∧
          (∃ table, ofDefinitions before = .ok table) ∧
          definition.firstComplaint? before = some problem) ∧
      (Catalogue.ofDefinitions definitions = .error problem ↔
        ofDefinitions definitions = .error problem) := by
  refine ⟨exists_ofDefinitions_iff, fun others perm => ?_, fun others part made => ?_,
    fun table made => ?_, fun problem => ⟨?_, ?_⟩⟩
  · rw [exists_ofDefinitions_iff, exists_ofDefinitions_iff]
    exact ⟨fun h => h.subperm perm.symm.subperm, fun h => h.subperm perm.subperm⟩
  · rw [exists_ofDefinitions_iff] at made ⊢
    exact made.subperm part.subperm
  · have indexed : Catalogue.ofDefinitions definitions = .ok (.of table) := by
      rw [Catalogue.ofDefinitions_eq, made]
      rfl
    refine ⟨(ofDefinitions_eq_ok_iff.mp made).2, fun _ _ => lookupOpcode_eq_some_iff,
      fun _ _ => lookupMnemonic_eq_some_iff, fun spec listed => ?_, _, indexed,
      Catalogue.indexes_of table⟩
    exact ⟨lookupOpcode_eq_some_iff.mpr ⟨listed, rfl⟩, lookupMnemonic_mnemonic listed, rfl, rfl⟩
  · simp only [exists_ofDefinitions_iff]
    exact ofDefinitions_eq_error_iff
  · rw [Catalogue.ofDefinitions_eq]
    exact map_eq_error_iff

/-- Mnemonics are compared without blanks and case, whether they are defined or looked up. -/
theorem ofDefinitions_exact_mixedCase :
    (∃ table, ofDefinitions
        [⟨" hlt\t", 0x01, [], "Halt", ""⟩, ⟨"Nop", 0x00, [], "No operation", ""⟩] = .ok table ∧
      table.lookupMnemonic "NOP " = some ⟨.nop, "No operation", ""⟩) ∧
    ofDefinitions [⟨"Nop", 0x00, [], "No operation", ""⟩, ⟨" nop", 0x01, [], "Halt", ""⟩] =
      .error (.duplicateMnemonic "NOP") := by
  have halt : Definition.Valid ⟨" hlt\t", 0x01, [], "Halt", ""⟩ :=
    ⟨by decide, .hlt, by decide, rfl, rfl⟩
  have nop : Definition.Valid ⟨"Nop", 0x00, [], "No operation", ""⟩ :=
    ⟨by decide, .nop, by decide, rfl, rfl⟩
  have both : Consistent
      [⟨" hlt\t", 0x01, [], "Halt", ""⟩, ⟨"Nop", 0x00, [], "No operation", ""⟩] :=
    ⟨by simp [halt, nop], by decide⟩
  have one : Consistent [⟨"Nop", 0x00, [], "No operation", ""⟩] :=
    ⟨by simp [nop], by decide⟩
  constructor
  · obtain ⟨table, made⟩ := (ofDefinitions_exact _).1.mpr both
    obtain ⟨presents, -, mnemonics, -⟩ := (ofDefinitions_exact _).2.2.2.1 table made
    obtain ⟨_, _, _, rest, specs⟩ := List.forall₂_cons_left_iff.mp presents
    obtain ⟨spec, _, second, _, specs'⟩ := List.forall₂_cons_left_iff.mp rest
    have same : spec = ⟨.nop, "No operation", ""⟩ :=
      second.unique ⟨by decide, rfl, rfl, rfl, rfl⟩
    exact ⟨table, made, (mnemonics _ _).mpr ⟨by simp [specs, specs', same], by decide⟩⟩
  · refine ((ofDefinitions_exact _).2.2.2.2 _).1.mpr ⟨[_], _, [], rfl, ?_, by decide⟩
    exact (ofDefinitions_exact _).1.mpr one

end Architecture
end Minicomputer
