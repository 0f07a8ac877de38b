import Mathlib.Data.List.Forall2
import Mathlib.Data.List.Induction
import Mathlib.Data.List.Perm.Subperm
import Minicomputer.Proofs.Architecture
import Minicomputer.Proofs.Results

/-!
# Which definitions make a table

A table is built one definition at a time, and every definition is checked against the table so far.
Here is what the checks come to, said of the definitions alone:

* `Definition.Valid`, `Architecture.Consistent` -- definitions that are admitted;
* `Definition.complaint?`, `Definition.firstComplaint?` -- what is wrong with a definition behind
  others that are admitted, check by check;
* `Architecture.ofDefinitions_eq_ok_iff`, `Architecture.ofDefinitions_eq_error_iff` -- a list of
  definitions makes a table exactly if it is consistent, with an entry for each, and otherwise the
  first definition that is not admitted is complained about.
-/

namespace Minicomputer

namespace Definition

/-! ## One definition -/

/-- The mnemonic in the form in which mnemonics are compared. -/
def key (definition : Definition) : String :=
  normalizeMnemonic definition.mnemonic

/-- The definition gives a name to an operation of the processor and repeats its opcode and its
operands. -/
structure Valid (definition : Definition) : Prop where
  named : Text.trim definition.name ≠ ""
  operation : ∃ operation : Operation, operation.mnemonic = definition.key ∧
    operation.code = definition.opcode ∧ operation.operands = definition.operands

/-- The entry is the one that is defined. -/
structure Presents (definition : Definition) (spec : Spec) : Prop where
  mnemonic : spec.mnemonic = definition.key
  opcode : spec.opcode = definition.opcode
  operands : spec.operands = definition.operands
  name : spec.name = definition.name
  description : spec.description = definition.description

variable {definition : Definition} {before : List Definition} {specs : List Spec}

theorem Presents.unique {spec spec' : Spec} (h : definition.Presents spec)
    (h' : definition.Presents spec') : spec = spec' := by
  have operation : spec.operation = spec'.operation :=
    Operation.mnemonic_injective (h.mnemonic.trans h'.mnemonic.symm)
  have name : spec.name = spec'.name := h.name.trans h'.name.symm
  have description : spec.description = spec'.description := h.description.trans h'.description.symm
  cases spec
  cases spec'
  cases operation
  cases name
  cases description
  rfl

/-- The operands of an operation fit in a word, so they are not asked about again. -/
theorem Valid.fitsWord (h : definition.Valid) : definition.FitsWord := by
  obtain ⟨operation, -, -, operands⟩ := h.operation
  have fit : ∀ kinds ∈ Operation.layouts,
      kinds.countP (· == .register) ≤ 2 ∧ kinds.countP (· != .register) ≤ 1 := by decide
  rw [FitsWord, ← operands]
  exact fit _ operation.operands_mem_layouts

theorem Valid.key_ne_empty (h : definition.Valid) : definition.key ≠ "" := by
  obtain ⟨operation, mnemonic, -, -⟩ := h.operation
  rw [← mnemonic]
  cases operation <;> decide

/-! ## What is wrong with a definition -/

/-- What a definition is checked for. -/
inductive Check where
  | mnemonicGiven
  | nameGiven
  | mnemonicNew
  | opcodeNew
  | operandsFit
  | operationKnown
  | opcodeRight
  | operandsRight
  deriving DecidableEq, Repr

/-- The checks in the order in which they are made. -/
def Check.all : List Check :=
  [mnemonicGiven, nameGiven, mnemonicNew, opcodeNew, operandsFit, operationKnown, opcodeRight,
    operandsRight]

/-- The complaint of a definition that fails a check behind other definitions.  What an operation
is asked to be is only asked if there is one. -/
def complaint? (before : List Definition) (definition : Definition) :
    Check → Option ArchitectureError
  | .mnemonicGiven =>
    if definition.key = "" then some (.missingField definition.opcode .mnemonic) else none
  | .nameGiven =>
    if Text.trim definition.name = "" then some (.missingField definition.opcode .name) else none
  | .mnemonicNew =>
    if ∃ earlier ∈ before, earlier.key = definition.key then
      some (.duplicateMnemonic definition.key)
    else none
  | .opcodeNew =>
    (before.find? (·.opcode == definition.opcode)).map fun first =>
      .duplicateOpcode definition.opcode first.key definition.key
  | .operandsFit =>
    if definition.FitsWord then none
    else some (.operandLayout definition.key definition.opcode)
  | .operationKnown =>
    if Operation.ofMnemonic? definition.key = none then some (.unknownOperation definition.key)
    else none
  | .opcodeRight =>
    (Operation.ofMnemonic? definition.key).bind fun operation =>
      if operation.code = definition.opcode then none
      else some (.opcodeMismatch definition.key definition.opcode operation.code)
  | .operandsRight =>
    (Operation.ofMnemonic? definition.key).bind fun operation =>
      if operation.operands = definition.operands then none
      else some (.operandMismatch definition.key definition.operands operation.operands)

/-- The complaint of the first check that a definition fails. -/
def firstComplaint? (before : List Definition) (definition : Definition) :
    Option ArchitectureError :=
  Check.all.findSome? (complaint? before definition)

/-- Of two complaints in a row the first counts. -/
theorem firstComplaint?_eq (before : List Definition) (definition : Definition) :
    definition.firstComplaint? before =
      (complaint? before definition .mnemonicGiven).or
        ((complaint? before definition .nameGiven).or
          ((complaint? before definition .mnemonicNew).or
            ((complaint? before definition .opcodeNew).or
              ((complaint? before definition .operandsFit).or
                ((complaint? before definition .operationKnown).or
                  ((complaint? before definition .opcodeRight).or
                    (complaint? before definition .operandsRight))))))) := by
  have cons (check : Check) (checks : List Check) :
      (check :: checks).findSome? (complaint? before definition) =
        (complaint? before definition check).or (checks.findSome? (complaint? before definition)) := by
    rw [List.findSome?_cons]
    cases complaint? before definition check <;> rfl
  simp only [firstComplaint?, Check.all, cons, List.findSome?_nil, Option.or_none]

/-- The complaints call for that result: the first of them, or the entry if there is none. -/
inductive CallsFor (before : List Definition) (definition : Definition) :
    Except ArchitectureError Spec → Prop
  | error {problem : ArchitectureError}
      (first : definition.firstComplaint? before = some problem) :
      CallsFor before definition (.error problem)
  | ok {spec : Spec} (nothing : definition.firstComplaint? before = none)
      (presents : definition.Presents spec) : CallsFor before definition (.ok spec)

theorem Valid.key_eq_of_opcode {other : Definition} (h : definition.Valid) (h' : other.Valid)
    (same : definition.opcode = other.opcode) : definition.key = other.key := by
  obtain ⟨operation, mnemonic, code, -⟩ := h.operation
  obtain ⟨operation', mnemonic', code', -⟩ := h'.operation
  have equal : operation = operation' :=
    Operation.code_injective (code.trans (same.trans code'.symm))
  rw [← mnemonic, ← mnemonic', equal]

/-- There is nothing to complain about exactly if the definition is valid and its mnemonic is new;
its opcode is new then. -/
theorem firstComplaint?_eq_none_iff (admitted : ∀ earlier ∈ before, earlier.Valid) :
    definition.firstComplaint? before = none ↔
      definition.Valid ∧ ∀ earlier ∈ before, earlier.key ≠ definition.key := by
  rw [firstComplaint?, List.findSome?_eq_none_iff]
  constructor
  · intro passes
    have name := passes .nameGiven (by decide)
    have fresh := passes .mnemonicNew (by decide)
    have known := passes .operationKnown (by decide)
    have code := passes .opcodeRight (by decide)
    have operands := passes .operandsRight (by decide)
    cases found : Operation.ofMnemonic? definition.key with
    | none => simp [complaint?, found] at known
    | some operation =>
      simp only [complaint?, found, Option.bind_some, ite_eq_left_iff, reduceCtorEq, imp_false,
        not_not] at code operands
      have spelled := Operation.ofMnemonic?_eq_some_iff.mp found
      refine ⟨⟨by simpa [complaint?] using name, operation, spelled, code, operands⟩, ?_⟩
      simpa [complaint?] using fresh
  · rintro ⟨valid, fresh⟩ check -
    obtain ⟨operation, spelled, code, operands⟩ := valid.operation
    have found := Operation.ofMnemonic?_eq_some_iff.mpr spelled
    cases check with
    | mnemonicGiven => rw [complaint?, if_neg valid.key_ne_empty]
    | nameGiven => rw [complaint?, if_neg valid.named]
    | mnemonicNew => rw [complaint?, if_neg (by simpa using fresh)]
    | opcodeNew =>
      have unused : before.find? (·.opcode == definition.opcode) = none := by
        rw [List.find?_eq_none]
        intro earlier member same
        exact fresh earlier member
          ((admitted earlier member).key_eq_of_opcode valid (beq_iff_eq.mp same))
      simp [complaint?, unused]
    | operandsFit => rw [complaint?, if_pos valid.fitsWord]
    | operationKnown => simp [complaint?, found]
    | opcodeRight => simp [complaint?, found, code]
    | operandsRight => simp [complaint?, found, operands]

theorem exists_key_iff (related : List.Forall₂ Presents before specs) (definition : Definition) :
    (∃ spec ∈ specs, spec.mnemonic = definition.key) ↔
      ∃ earlier ∈ before, earlier.key = definition.key := by
  induction related with
  | nil => simp
  | cons first rest ih =>
    simp only [List.exists_mem_cons_iff, ih, first.mnemonic]

/-- The entry that has the opcode already is that of the first definition that has it. -/
theorem find?_opcode (related : List.Forall₂ Presents before specs) (definition : Definition) :
    (before.find? (·.opcode == definition.opcode)).map key =
      (specs.find? (·.opcode == definition.opcode)).map Spec.mnemonic :=
  map_eq_of_rel
    (forall₂_find? related fun _ _ presents =>
      congrArg (· == definition.opcode) presents.opcode.symm)
    fun _ _ presents => presents.mnemonic.symm

end Definition

namespace Architecture

open Definition

variable {architecture table : Architecture} {definition : Definition}
  {definitions before : List Definition}

/-- A check does what the complaints call for. -/
theorem check_callsFor (related : List.Forall₂ Presents before architecture.specs)
    (definition : Definition) :
    definition.CallsFor before ((architecture.check definition).map Subtype.val) := by
  have mnemonics := exists_key_iff related definition
  have opcodes := find?_opcode related definition
  -- Where a check fails, those before it have been passed.
  unfold check
  dsimp only
  split
  next blank =>
    have fails : complaint? before definition .mnemonicGiven =
        some (.missingField definition.opcode .mnemonic) := by
      rw [complaint?, if_pos (show definition.key = "" from blank)]
    refine .error ?_
    rw [firstComplaint?_eq, fails]
    rfl
  next written =>
  have mnemonicGiven : complaint? before definition .mnemonicGiven = none := by
    rw [complaint?, if_neg (show definition.key ≠ "" from written)]
  split
  next blank =>
    have fails : complaint? before definition .nameGiven =
        some (.missingField definition.opcode .name) := by
      rw [complaint?, if_pos blank]
    refine .error ?_
    rw [firstComplaint?_eq, mnemonicGiven, fails]
    rfl
  next named =>
  have nameGiven : complaint? before definition .nameGiven = none := by
    rw [complaint?, if_neg named]
  split
  next listed =>
    have fails : complaint? before definition .mnemonicNew =
        some (.duplicateMnemonic definition.key) := by
      rw [complaint?, if_pos (mnemonics.mp listed)]
    refine .error ?_
    rw [firstComplaint?_eq, mnemonicGiven, nameGiven, fails]
    rfl
  next fresh =>
  have mnemonicNew : complaint? before definition .mnemonicNew = none := by
    rw [complaint?, if_neg (mt mnemonics.mpr fresh)]
  split
  next first found =>
    rw [show architecture.specs.find? (·.opcode == definition.opcode) = some first from found]
      at opcodes
    obtain ⟨earlier, found', same⟩ := Option.map_eq_some_iff.mp opcodes
    have fails : complaint? before definition .opcodeNew =
        some (.duplicateOpcode definition.opcode first.mnemonic definition.key) := by
      rw [complaint?, found', ← same]
      rfl
    refine .error ?_
    rw [firstComplaint?_eq, mnemonicGiven, nameGiven, mnemonicNew, fails]
    rfl
  next absent =>
  rw [show architecture.specs.find? (·.opcode == definition.opcode) = none from absent] at opcodes
  have opcodeNew : complaint? before definition .opcodeNew = none := by
    rw [complaint?, Option.map_eq_none_iff.mp opcodes]
    rfl
  split
  next unfit =>
    have fails : complaint? before definition .operandsFit =
        some (.operandLayout definition.key definition.opcode) := by
      rw [complaint?, if_neg unfit]
    refine .error ?_
    rw [firstComplaint?_eq, mnemonicGiven, nameGiven, mnemonicNew, opcodeNew, fails]
    rfl
  next fits =>
  have operandsFit : complaint? before definition .operandsFit = none := by
    rw [complaint?, if_pos (not_not.mp fits)]
  split
  next unknown =>
    have fails : complaint? before definition .operationKnown =
        some (.unknownOperation definition.key) := by
      rw [complaint?, if_pos (show Operation.ofMnemonic? definition.key = none from unknown)]
    refine .error ?_
    rw [firstComplaint?_eq, mnemonicGiven, nameGiven, mnemonicNew, opcodeNew, operandsFit, fails]
    rfl
  next operation found =>
  have known : Operation.ofMnemonic? definition.key = some operation := found
  have operationKnown : complaint? before definition .operationKnown = none := by
    rw [complaint?, known, if_neg (Option.some_ne_none operation)]
  split
  next other =>
    have fails : complaint? before definition .opcodeRight =
        some (.opcodeMismatch definition.key definition.opcode operation.code) := by
      rw [complaint?, known]
      exact if_neg (Ne.symm other)
    refine .error ?_
    rw [firstComplaint?_eq, mnemonicGiven, nameGiven, mnemonicNew, opcodeNew, operandsFit,
      operationKnown, fails]
    rfl
  next same =>
  have code := (not_not.mp same).symm
  have opcodeRight : complaint? before definition .opcodeRight = none := by
    rw [complaint?, known]
    exact if_pos code
  split
  next other =>
    have fails : complaint? before definition .operandsRight =
        some (.operandMismatch definition.key definition.operands operation.operands) := by
      rw [complaint?, known]
      exact if_neg (Ne.symm other)
    refine .error ?_
    rw [firstComplaint?_eq, mnemonicGiven, nameGiven, mnemonicNew, opcodeNew, operandsFit,
      operationKnown, opcodeRight, fails]
    rfl
  next same =>
    have operands := (not_not.mp same).symm
    have operandsRight : complaint? before definition .operandsRight = none := by
      rw [complaint?, known]
      exact if_pos operands
    have spelled := Operation.ofMnemonic?_eq_some_iff.mp known
    refine .ok ?_ ⟨spelled, code, operands, rfl, rfl⟩
    rw [firstComplaint?_eq, mnemonicGiven, nameGiven, mnemonicNew, opcodeNew, operandsFit,
      operationKnown, opcodeRight, operandsRight]
    rfl

/-! ## One definition more -/

theorem add_eq_error_iff (related : List.Forall₂ Presents before architecture.specs)
    {problem : ArchitectureError} :
    architecture.add definition = .error problem ↔
      definition.firstComplaint? before = some problem := by
  have called := check_callsFor related definition
  unfold add
  cases checked : architecture.check definition with
  | error problem' =>
    rw [checked] at called
    cases called with
    | error first => simp [first]
  | ok admitted =>
    rw [checked] at called
    cases called with
    | ok nothing presents => simp [nothing]

theorem specs_of_add (related : List.Forall₂ Presents before architecture.specs)
    (added : architecture.add definition = .ok table) :
    definition.firstComplaint? before = none ∧
      ∃ spec, definition.Presents spec ∧ table.specs = architecture.specs ++ [spec] := by
  have called := check_callsFor related definition
  unfold add at added
  cases checked : architecture.check definition with
  | error problem =>
    rw [checked] at added
    cases added
  | ok admitted =>
    rw [checked] at added called
    cases added
    cases called with
    | ok nothing presents => exact ⟨nothing, admitted.val, presents, rfl⟩

theorem eq_of_specs_eq (same : architecture.specs = table.specs) : architecture = table := by
  cases architecture
  cases table
  cases same
  rfl

theorem ofDefinitions_concat (before : List Definition) (definition : Definition) :
    ofDefinitions (before ++ [definition]) =
      ofDefinitions before >>= fun table => table.add definition := by
  rw [ofDefinitions, List.foldlM_append]
  simp only [List.foldlM_cons, List.foldlM_nil, bind_pure]
  rfl

/-! ## Lists of definitions -/

/-- Every definition is valid, and no two have the same mnemonic. -/
structure Consistent (definitions : List Definition) : Prop where
  valid : ∀ definition ∈ definitions, definition.Valid
  distinct : (definitions.map key).Nodup

theorem consistent_concat_iff :
    Consistent (before ++ [definition]) ↔
      Consistent before ∧ definition.Valid ∧ ∀ earlier ∈ before, earlier.key ≠ definition.key := by
  constructor
  · rintro ⟨valid, distinct⟩
    rw [List.map_append, List.nodup_append] at distinct
    refine ⟨⟨fun earlier member => valid earlier (List.mem_append_left _ member), distinct.1⟩,
      valid definition (by simp), fun earlier member => ?_⟩
    exact distinct.2.2 _ (List.mem_map_of_mem member) _ (by simp)
  · rintro ⟨⟨valid, distinct⟩, valid', fresh⟩
    refine ⟨?_, ?_⟩
    · simpa [or_imp, forall_and] using ⟨valid, valid'⟩
    · rw [List.map_append, List.nodup_append]
      refine ⟨distinct, by simp, ?_⟩
      simpa using fresh

/-- Some of the definitions, in whatever order, are consistent if all are. -/
theorem Consistent.subperm {others : List Definition} (h : Consistent definitions)
    (part : others.Subperm definitions) : Consistent others := by
  obtain ⟨arranged, perm, sublist⟩ := part
  refine ⟨fun definition member => h.valid definition ?_, ?_⟩
  · exact sublist.subset (perm.mem_iff.mpr member)
  · exact (perm.map key).nodup_iff.mp (h.distinct.sublist (sublist.map key))

/-! ## The table of a list -/

theorem specs_of_ofDefinitions (made : ofDefinitions definitions = .ok table) :
    Consistent definitions ∧ List.Forall₂ Presents definitions table.specs := by
  induction definitions using List.reverseRecOn generalizing table with
  | nil =>
    cases made
    exact ⟨⟨by simp, by simp⟩, .nil⟩
  | append_singleton before definition ih =>
    rw [ofDefinitions_concat] at made
    obtain ⟨earlier, made', added⟩ := bind_eq_ok_iff.mp made
    obtain ⟨consistent, related⟩ := ih made'
    obtain ⟨none, spec, presents, specs⟩ := specs_of_add related added
    have admitted := (firstComplaint?_eq_none_iff consistent.valid).mp none
    refine ⟨consistent_concat_iff.mpr ⟨consistent, admitted⟩, ?_⟩
    rw [specs]
    exact List.rel_append related (.cons presents .nil)

theorem Consistent.exists_ofDefinitions (h : Consistent definitions) :
    ∃ table, ofDefinitions definitions = .ok table := by
  induction definitions using List.reverseRecOn with
  | nil => exact ⟨empty, rfl⟩
  | append_singleton before definition ih =>
    obtain ⟨consistent, admitted⟩ := consistent_concat_iff.mp h
    obtain ⟨earlier, made⟩ := ih consistent
    have related := (specs_of_ofDefinitions made).2
    have none := (firstComplaint?_eq_none_iff consistent.valid).mpr admitted
    rw [ofDefinitions_concat]
    cases added : earlier.add definition with
    | ok table => exact ⟨table, bind_eq_ok_iff.mpr ⟨earlier, made, added⟩⟩
    | error problem =>
      have some := (add_eq_error_iff related).mp added
      rw [none] at some
      cases some

/-- A list of definitions makes a table exactly if it is consistent, and the table has the entry of
each definition in its place. -/
theorem ofDefinitions_eq_ok_iff :
    ofDefinitions definitions = .ok table ↔
      Consistent definitions ∧ List.Forall₂ Presents definitions table.specs := by
  constructor
  · exact specs_of_ofDefinitions
  · rintro ⟨consistent, related⟩
    obtain ⟨made, h⟩ := consistent.exists_ofDefinitions
    -- Definitions leave no choice of entries.
    have specs : made.specs = table.specs :=
      List.right_unique_forall₂' (fun _ _ _ first second => first.unique second)
        (specs_of_ofDefinitions h).2 related
    rw [h, eq_of_specs_eq specs]

theorem exists_ofDefinitions_iff :
    (∃ table, ofDefinitions definitions = .ok table) ↔ Consistent definitions := by
  constructor
  · rintro ⟨table, made⟩
    exact (ofDefinitions_eq_ok_iff.mp made).1
  · exact Consistent.exists_ofDefinitions

/-- The first definition that is not admitted behind those before it is complained about. -/
theorem ofDefinitions_eq_error_iff {problem : ArchitectureError} :
    ofDefinitions definitions = .error problem ↔
      ∃ before definition after, definitions = before ++ definition :: after ∧
        Consistent before ∧ definition.firstComplaint? before = some problem := by
  rw [ofDefinitions, foldlM_eq_error_iff]
  constructor
  · rintro ⟨before, definition, after, table, cut, made, refused⟩
    obtain ⟨consistent, related⟩ := specs_of_ofDefinitions made
    exact ⟨before, definition, after, cut, consistent, (add_eq_error_iff related).mp refused⟩
  · rintro ⟨before, definition, after, cut, consistent, complaint⟩
    obtain ⟨table, made⟩ := consistent.exists_ofDefinitions
    have related := (specs_of_ofDefinitions made).2
    exact ⟨before, definition, after, table, cut, made, (add_eq_error_iff related).mpr complaint⟩

end Architecture
end Minicomputer
