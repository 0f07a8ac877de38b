import Mathlib.Data.List.Basic
import Minicomputer.Assembly.Source
import Minicomputer.Proofs.Assembly.Reading
import Minicomputer.Proofs.Results

/-!
# What the first pass collects

`Source.read` goes through a text with a growing state.  Here its result is said in terms of the
lines of the text alone: which lists of lines are accepted, and what their statements and labels
are.

* `read_eq_ok_iff` -- when a text is accepted, and as what;
* `address?_eq_labelAddress?` -- the address of a label is the number of statements on the lines
  before its definition.
-/

namespace Minicomputer

namespace Source

/-! ## The lines of a text -/

/-- Every line of the text can be read, and these are they. -/
def Parses (text : String) (lines : List Line) : Prop :=
  (Text.lines text.toList).map Line.parse = lines.map Except.ok

def statementsOf (lines : List Line) : List Statement :=
  lines.filterMap Line.statement

def labelsOf (lines : List Line) : List String :=
  lines.filterMap Line.label

/-- How many instruction lines there are before line `k`, where the first line is line 0. -/
def statementsBefore (lines : List Line) (k : Nat) : Nat :=
  (statementsOf (lines.take k)).length

/-- Line `k` defines that label. -/
def Defines (lines : List Line) (k : Nat) (name : String) : Prop :=
  ∃ line, lines[k]? = some line ∧ line.label = some name

/-- What the first pass asks of lines that can be read. -/
structure Acceptable (lines : List Line) : Prop where
  no_register : ∀ name ∈ labelsOf lines, Register.number? name.toList = none
  distinct : (labelsOf lines).Nodup
  fits : (statementsOf lines).length ≤ maxStatements

theorem Parses.unique {text : String} {lines lines' : List Line} (h : Parses text lines)
    (h' : Parses text lines') : lines = lines' := by
  have same : lines.map (Except.ok (ε := List Char)) = lines'.map Except.ok := h.symm.trans h'
  exact List.map_injective_iff.mpr (fun _ _ => Except.ok.inj) same

theorem parses_of_toOption {text : String} {lines : List Line}
    (h : (Text.lines text.toList).map (fun line => (Line.parse line).toOption) =
      lines.map some) : Parses text lines := by
  unfold Parses
  -- Where the lines come from does not matter.
  generalize Text.lines text.toList = texts at h ⊢
  induction texts generalizing lines with
  | nil =>
    obtain rfl : lines = [] := by simpa using h.symm
    rfl
  | cons first rest ih =>
    cases lines with
    | nil => cases h
    | cons line lines =>
      obtain ⟨read, h'⟩ := List.cons.inj h
      rw [List.map_cons, List.map_cons, eq_ok_of_toOption read, ih h']

theorem exists_trees {texts : List (List Char)} {lines : List Line}
    (parses : texts.map Line.parse = lines.map Except.ok) :
    ∃ trees : List Grammar.Line, texts = trees.map Grammar.Line.text ∧
      lines = trees.map Grammar.Line.line := by
  induction texts generalizing lines with
  | nil => exact ⟨[], rfl, by simpa using parses.symm⟩
  | cons text texts ih =>
    cases lines with
    | nil => cases parses
    | cons line lines =>
      obtain ⟨read, parses'⟩ := List.cons.inj parses
      obtain ⟨tree, rfl⟩ := Grammar.exists_line_of_parse read
      obtain ⟨trees, rfl, rfl⟩ := ih parses'
      have said : line = tree.line := Except.ok.inj (read.symm.trans (Grammar.parse_text tree))
      exact ⟨tree :: trees, rfl, congrArg (· :: _) said⟩

/-- The lines of a text can be read exactly if there are trees of them. -/
theorem parses_iff_exists_trees {text : String} {lines : List Line} :
    Parses text lines ↔
      ∃ trees : List Grammar.Line, Text.lines text.toList = trees.map Grammar.Line.text ∧
        lines = trees.map Grammar.Line.line := by
  constructor
  · exact exists_trees
  · rintro ⟨trees, texts, rfl⟩
    rw [Parses, texts, List.map_map, List.map_map]
    exact List.map_congr_left fun tree _ => Grammar.parse_text tree

theorem statementsOf_cons (first : Line) (rest : List Line) :
    statementsOf (first :: rest) = first.statement.toList ++ statementsOf rest := by
  simp only [statementsOf, List.filterMap_eq_flatMap_toList, List.flatMap_cons]

theorem labelsOf_cons (first : Line) (rest : List Line) :
    labelsOf (first :: rest) = first.label.toList ++ labelsOf rest := by
  simp only [labelsOf, List.filterMap_eq_flatMap_toList, List.flatMap_cons]

theorem statementsBefore_succ {lines : List Line} (k : Nat) (first : Line) :
    statementsBefore (first :: lines) (k + 1) =
      first.statement.toList.length + statementsBefore lines k := by
  rw [statementsBefore, List.take_succ_cons, statementsOf_cons, List.length_append]
  rfl

theorem statementsBefore_le (lines : List Line) (k : Nat) :
    statementsBefore lines k ≤ (statementsOf lines).length :=
  ((List.take_sublist k lines).filterMap Line.statement).length_le

/-! ## What lines contribute -/

/-- The statements of lines, the first of which has the number `line`. -/
def numbered (line : Nat) : List Line → List NumberedStatement
  | [] => []
  | first :: rest => first.statement.toList.map (⟨line, ·⟩) ++ numbered (line + 1) rest

/-- The labels of lines that follow so many statements, the first of which has the number
`line`. -/
def labelled (address line : Nat) : List Line → List (String × Symbol)
  | [] => []
  | first :: rest =>
    first.label.toList.map (fun name => (name, ⟨address, line, false⟩)) ++
      labelled (address + first.statement.toList.length) (line + 1) rest

/-- If what is noted about the elements of lines is forgotten again, the elements are left. -/
theorem map_forget_append {α β : Type} {part : Line → Option α} {note : α → β} {forget : β → α}
    (inverse : ∀ element, forget (note element) = element) {rest : List Line} {noted : List β}
    (later : noted.map forget = rest.filterMap part) (first : Line) :
    ((part first).toList.map note ++ noted).map forget = (first :: rest).filterMap part := by
  have same : forget ∘ note = id := funext inverse
  rw [List.map_append, List.map_map, same, List.map_id, later, List.filterMap_eq_flatMap_toList,
    List.filterMap_eq_flatMap_toList, List.flatMap_cons]

theorem map_statement_numbered (line : Nat) (lines : List Line) :
    (numbered line lines).map NumberedStatement.statement = statementsOf lines := by
  induction lines generalizing line with
  | nil => rfl
  | cons first rest ih => exact map_forget_append (fun _ => rfl) (ih _) first

theorem map_fst_labelled (address line : Nat) (lines : List Line) :
    (labelled address line lines).map Prod.fst = labelsOf lines := by
  induction lines generalizing address line with
  | nil => rfl
  | cons first rest ih => exact map_forget_append (fun _ => rfl) (ih _ _) first

/-- The address of a label counts the statements on the lines before it. -/
theorem mem_labelled_iff {address line : Nat} {lines : List Line} {name : String}
    {symbol : Symbol} :
    (name, symbol) ∈ labelled address line lines ↔
      ∃ k, Defines lines k name ∧
        symbol = ⟨address + statementsBefore lines k, line + k, false⟩ := by
  induction lines generalizing address line with
  | nil => simp [labelled, Defines]
  | cons first rest ih =>
    rw [labelled, List.mem_append, ih]
    constructor
    -- The first line is line 0, and line `k` of the rest is line `k + 1`.
    · rintro (here | ⟨k, ⟨found, defined, label⟩, rfl⟩)
      · obtain ⟨name', label, same⟩ := List.mem_map.mp here
        obtain ⟨rfl, rfl⟩ := Prod.mk.inj same
        exact ⟨0, ⟨first, rfl, by simpa using label⟩, rfl⟩
      · refine ⟨k + 1, ⟨found, defined, label⟩, ?_⟩
        rw [statementsBefore_succ, Nat.add_assoc, Nat.add_right_comm line 1 k]
        rfl
    · rintro ⟨k, ⟨found, defined, label⟩, rfl⟩
      cases k with
      | zero =>
        cases defined
        exact .inl (List.mem_map.mpr ⟨name, by simp [label], rfl⟩)
      | succ k =>
        refine .inr ⟨k, ⟨found, defined, label⟩, ?_⟩
        rw [statementsBefore_succ, Nat.add_assoc, Nat.add_right_comm line 1 k]
        rfl

/-! ## One line -/

theorem define_eq_ok_iff {symbols symbols' : SymbolTable} {name : String} {address line : Nat} :
    symbols.define name address line = .ok symbols' ↔
      symbols.get? name = none ∧
        symbols'.entries = symbols.entries ++ [(name, ⟨address, line, false⟩)] := by
  unfold SymbolTable.define
  split
  next first found => simp [found]
  next fresh =>
    rcases symbols' with ⟨entries, nodup⟩
    simp only [Except.ok.injEq, SymbolTable.mk.injEq]
    exact ⟨fun same => ⟨fresh, same.symm⟩, fun same => same.2.symm⟩

theorem addLabel_eq_ok_iff {source source' : Source} {line : Nat} {label : Option String} :
    source.addLabel line label = .ok source' ↔
      (∀ name ∈ label, Register.number? name.toList = none ∧ source.symbols.get? name = none) ∧
        source'.statements = source.statements ∧
        source'.symbols.entries = source.symbols.entries ++
          label.toList.map (fun name => (name, ⟨source.statements.size, line, false⟩)) := by
  rcases source with ⟨statements, symbols⟩
  rcases source' with ⟨statements', ⟨entries', nodup'⟩⟩
  cases label with
  | none =>
    rcases symbols with ⟨entries, nodup⟩
    simp [addLabel, eq_comm]
  | some name =>
    simp only [addLabel]
    by_cases register : (Register.number? name.toList).isSome
    · rw [if_pos register]
      constructor
      · intro h
        cases h
      · rintro ⟨fresh, -⟩
        rw [(fresh name rfl).1] at register
        cases register
    · rw [if_neg register]
      have noRegister : Register.number? name.toList = none := by simpa using register
      cases defined : symbols.define name statements.size line with
      | error first =>
        constructor
        · intro h
          cases h
        · rintro ⟨fresh, -, entries⟩
          -- A fresh name would have been accepted.
          have accepted : symbols.define name statements.size line = .ok ⟨entries', nodup'⟩ :=
            define_eq_ok_iff.mpr ⟨(fresh name rfl).2, entries⟩
          rw [defined] at accepted
          cases accepted
      | ok symbols'' =>
        have ⟨fresh, entries⟩ := define_eq_ok_iff.mp defined
        rcases symbols'' with ⟨entries'', nodup''⟩
        dsimp only at entries
        subst entries
        simp [noRegister, fresh, eq_comm]

theorem addStatement_eq_ok_iff {source source' : Source} {line : Nat}
    {statement : Option Statement} :
    source.addStatement line statement = .ok source' ↔
      (statement ≠ none → source.statements.size ≠ maxStatements) ∧
        source'.statements.toList =
          source.statements.toList ++ statement.toList.map (⟨line, ·⟩) ∧
        source'.symbols = source.symbols := by
  rcases source with ⟨statements, symbols⟩
  rcases source' with ⟨statements', symbols'⟩
  cases statement with
  | none => simp [addStatement, eq_comm, Array.toList_inj]
  | some statement =>
    simp only [addStatement]
    by_cases full : statements.size = maxStatements
    · simp [full]
    · rw [if_neg full]
      simp only [Except.ok.injEq, Source.mk.injEq, ne_eq, reduceCtorEq, not_false_eq_true,
        full, forall_const, true_and, Option.toList_some, List.map_singleton]
      rw [← Array.toList_push, Array.toList_inj, eq_comm (a := symbols),
        eq_comm (a := statements.push _)]

/-- What a line asks of the text before it. -/
structure Admits (source : Source) (parsed : Line) : Prop where
  label : ∀ name ∈ parsed.label,
    Register.number? name.toList = none ∧ source.symbols.get? name = none
  room : parsed.statement ≠ none → source.statements.size ≠ maxStatements

theorem addLine_eq_ok_iff {source source' : Source} {line : Nat} {text : List Char} :
    source.addLine line text = .ok source' ↔
      ∃ parsed, Line.parse text = .ok parsed ∧ source.Admits parsed ∧
        source'.statements.toList =
          source.statements.toList ++ parsed.statement.toList.map (⟨line, ·⟩) ∧
        source'.symbols.entries = source.symbols.entries ++
          parsed.label.toList.map (fun name => (name, ⟨source.statements.size, line, false⟩)) := by
  unfold addLine
  cases read : Line.parse text with
  | error rest =>
    constructor
    · intro h
      cases h
    · rintro ⟨parsed, same, -⟩
      cases same
  | ok parsed =>
    dsimp only
    rw [bind_eq_ok_iff]
    constructor
    · rintro ⟨middle, added, added'⟩
      obtain ⟨fresh, statements, entries⟩ := addLabel_eq_ok_iff.mp added
      rw [addStatement_eq_ok_iff, statements] at added'
      obtain ⟨room, statements', symbols'⟩ := added'
      exact ⟨parsed, rfl, ⟨fresh, room⟩, statements', symbols' ▸ entries⟩
    · rintro ⟨parsed', same, ⟨fresh, room⟩, statements', entries'⟩
      cases same
      exact ⟨⟨source.statements, source'.symbols⟩,
        addLabel_eq_ok_iff.mpr ⟨fresh, rfl, entries'⟩,
        addStatement_eq_ok_iff.mpr ⟨room, statements', rfl⟩⟩

theorem exists_addLine {source : Source} {line : Nat} {text : List Char} {parsed : Line}
    (read : Line.parse text = .ok parsed) (admitted : source.Admits parsed) :
    ∃ next, source.addLine line text = .ok next := by
  -- The labels stay distinct, so there is a table for them.
  have nodup : ((source.symbols.entries ++ parsed.label.toList.map fun name =>
      (name, (⟨source.statements.size, line, false⟩ : Symbol))).map Prod.fst).Nodup := by
    cases label : parsed.label with
    | none => simpa using source.symbols.nodup
    | some name =>
      have fresh := SymbolTable.get?_eq_none_iff.mp (admitted.label name label).2
      rw [List.map_append, List.nodup_append]
      refine ⟨source.symbols.nodup, by simp, fun other known name' new => ?_⟩
      rintro rfl
      obtain rfl : other = name := by simpa using new
      exact fresh known
  let next : Source :=
    { statements :=
        (source.statements.toList ++ parsed.statement.toList.map
          fun statement => (⟨line, statement⟩ : NumberedStatement)).toArray
      symbols := ⟨_, nodup⟩ }
  have added : source.addLine line text = .ok next :=
    addLine_eq_ok_iff.mpr ⟨parsed, read, admitted, rfl, rfl⟩
  exact ⟨next, added⟩

/-! ## All lines -/

/-- What lines ask of the text before them. -/
structure AdmitsAll (source : Source) (lines : List Line) : Prop where
  no_register : ∀ name ∈ labelsOf lines, Register.number? name.toList = none
  distinct : (source.symbols.entries.map Prod.fst ++ labelsOf lines).Nodup
  fits : source.statements.size + (statementsOf lines).length ≤ maxStatements

theorem AdmitsAll.first {source : Source} {first : Line} {rest : List Line}
    (h : source.AdmitsAll (first :: rest)) : source.Admits first := by
  have fits := h.fits
  have distinct := h.distinct
  rw [statementsOf_cons, List.length_append] at fits
  rw [labelsOf_cons] at distinct
  refine ⟨fun name label => ⟨?_, ?_⟩, fun stated => ?_⟩
  · exact h.no_register name (by simp [labelsOf_cons, Option.mem_def.mp label])
  · rw [SymbolTable.get?_eq_none_iff]
    rw [Option.mem_def.mp label] at distinct
    exact fun known => (List.nodup_append.mp distinct).2.2 name known name (by simp) rfl
  · obtain ⟨statement, there⟩ := Option.ne_none_iff_exists'.mp stated
    rw [there, Option.toList_some, List.length_singleton] at fits
    omega

theorem admitsAll_cons_iff {source next : Source} {first : Line} {rest : List Line} {line : Nat}
    (admitted : source.Admits first)
    (statements : next.statements.toList =
      source.statements.toList ++ first.statement.toList.map (⟨line, ·⟩))
    (entries : next.symbols.entries = source.symbols.entries ++
      first.label.toList.map (fun name => (name, ⟨source.statements.size, line, false⟩))) :
    source.AdmitsAll (first :: rest) ↔ next.AdmitsAll rest := by
  have names : next.symbols.entries.map Prod.fst ++ labelsOf rest =
      source.symbols.entries.map Prod.fst ++ labelsOf (first :: rest) := by
    rw [entries, List.map_append, List.map_map, labelsOf_cons, List.append_assoc]
    exact congrArg (fun names => _ ++ (names ++ _)) (List.map_id _)
  have grown : next.statements.size = source.statements.size + first.statement.toList.length := by
    simpa using congrArg List.length statements
  have sizes : next.statements.size + (statementsOf rest).length =
      source.statements.size + (statementsOf (first :: rest)).length := by
    rw [grown, statementsOf_cons, List.length_append, Nat.add_assoc]
  constructor
  · rintro ⟨no_register, distinct, fits⟩
    refine ⟨fun name label => no_register name ?_, names ▸ distinct, sizes ▸ fits⟩
    rw [labelsOf_cons]
    exact List.mem_append_right _ label
  · rintro ⟨no_register, distinct, fits⟩
    refine ⟨fun name member => ?_, names ▸ distinct, sizes ▸ fits⟩
    rw [labelsOf_cons, List.mem_append, Option.mem_toList] at member
    rcases member with here | later
    · exact (admitted.label name here).1
    · exact no_register name later

/-- What a line leaves behind is what the lines after it are judged by. -/
theorem addLine_step {source next : Source} {line : Nat} {text : List Char}
    (size : source.statements.size ≤ maxStatements) (added : source.addLine line text = .ok next) :
    ∃ first, Line.parse text = .ok first ∧ next.statements.size ≤ maxStatements ∧
      ∀ rest, (source.AdmitsAll (first :: rest) ↔ next.AdmitsAll rest) ∧
        source.statements.toList ++ numbered line (first :: rest) =
          next.statements.toList ++ numbered (line + 1) rest ∧
        source.symbols.entries ++ labelled source.statements.size line (first :: rest) =
          next.symbols.entries ++ labelled next.statements.size (line + 1) rest := by
  obtain ⟨first, read, admitted, statements, entries⟩ := addLine_eq_ok_iff.mp added
  have sizes : next.statements.size =
      source.statements.size + first.statement.toList.length := by
    simpa using congrArg List.length statements
  have size' : next.statements.size ≤ maxStatements := by
    rw [sizes]
    cases there : first.statement with
    | none => exact size
    | some statement =>
      have room := admitted.room (by simp [there])
      rw [Option.toList_some, List.length_singleton]
      omega
  refine ⟨first, read, size', fun rest => ⟨?_, ?_, ?_⟩⟩
  · exact admitsAll_cons_iff admitted statements entries
  · rw [numbered, statements, List.append_assoc]
  · rw [labelled, entries, sizes, List.append_assoc]

theorem addLines_cons (source : Source) (line : Nat) (text : List Char)
    (texts : List (List Char)) :
    source.addLines line (text :: texts) =
      source.addLine line text >>= fun next => next.addLines (line + 1) texts := by
  rw [addLines]
  cases source.addLine line text with
  | error problem => rfl
  | ok next => rfl

theorem addLines_eq_ok_iff {source source' : Source} {line : Nat} {texts : List (List Char)}
    (size : source.statements.size ≤ maxStatements) :
    source.addLines line texts = .ok source' ↔
      ∃ lines, texts.map Line.parse = lines.map Except.ok ∧ source.AdmitsAll lines ∧
        source'.statements.toList = source.statements.toList ++ numbered line lines ∧
        source'.symbols.entries =
          source.symbols.entries ++ labelled source.statements.size line lines := by
  -- What the lines before have collected is part of the source, which therefore stays general.
  induction texts generalizing source line with
  | nil =>
    have admitted : source.AdmitsAll [] := by
      refine ⟨by simp [labelsOf], ?_, by simpa [statementsOf] using size⟩
      simpa [labelsOf] using source.symbols.nodup
    constructor
    · intro h
      cases h
      exact ⟨[], rfl, admitted, by simp [numbered], by simp [labelled]⟩
    · rintro ⟨lines, parses, -, statements, entries⟩
      obtain rfl : lines = [] := by simpa using parses.symm
      rcases source with ⟨_, ⟨_, _⟩⟩
      rcases source' with ⟨_, ⟨_, _⟩⟩
      simp only [numbered, labelled, List.append_nil, Array.toList_inj] at statements entries
      subst statements entries
      rfl
  | cons text texts ih =>
    rw [addLines_cons, bind_eq_ok_iff]
    constructor
    · rintro ⟨next, added, left⟩
      obtain ⟨first, read, size', step⟩ := addLine_step size added
      obtain ⟨rest, parses, admitted, statements', entries'⟩ := (ih size').mp left
      obtain ⟨admits, statements, entries⟩ := step rest
      refine ⟨first :: rest, ?_, admits.mpr admitted, ?_, ?_⟩
      · rw [List.map_cons, List.map_cons, read, parses]
      · rw [statements, statements']
      · rw [entries, entries']
    · rintro ⟨lines, parses, admitted, statements', entries'⟩
      cases lines with
      | nil => cases parses
      | cons first rest =>
        obtain ⟨read, parses'⟩ := List.cons.inj parses
        -- What is asked of all lines is asked of the first, so the first is accepted.
        obtain ⟨next, added⟩ : ∃ next, source.addLine line text = .ok next :=
          exists_addLine read admitted.first
        obtain ⟨first', read', size', step⟩ := addLine_step size added
        cases read.symm.trans read'
        obtain ⟨admits, statements, entries⟩ := step rest
        refine ⟨next, added, (ih size').mpr ⟨rest, parses', admits.mp admitted, ?_, ?_⟩⟩
        · rw [← statements, statements']
        · rw [← entries, entries']

/-! ## Whole texts -/

theorem admitsAll_empty_iff {lines : List Line} : empty.AdmitsAll lines ↔ Acceptable lines := by
  constructor
  · rintro ⟨no_register, distinct, fits⟩
    exact ⟨no_register, by simpa [empty, SymbolTable.empty] using distinct,
      by simpa [empty] using fits⟩
  · rintro ⟨no_register, distinct, fits⟩
    exact ⟨no_register, by simpa [empty, SymbolTable.empty] using distinct,
      by simpa [empty] using fits⟩

/-- The first pass accepts a text exactly if its lines can be read and are acceptable, and then it
has collected what they contribute. -/
theorem read_eq_ok_iff {text : String} {source : Source} :
    read text = .ok source ↔
      ∃ lines, Parses text lines ∧ Acceptable lines ∧
        source.statements.toList = numbered 1 lines ∧
        source.symbols.entries = labelled 0 1 lines := by
  rw [read, addLines_eq_ok_iff (Nat.zero_le _)]
  simp only [admitsAll_empty_iff]
  rfl

theorem exists_read {text : String} {lines : List Line} (parses : Parses text lines)
    (acceptable : Acceptable lines) : ∃ source, read text = .ok source := by
  have nodup : ((labelled 0 1 lines).map Prod.fst).Nodup := by
    rw [map_fst_labelled]
    exact acceptable.distinct
  let source : Source := ⟨(numbered 1 lines).toArray, ⟨labelled 0 1 lines, nodup⟩⟩
  exact ⟨source, read_eq_ok_iff.mpr ⟨lines, parses, acceptable, rfl, rfl⟩⟩

/-! ## Addresses -/

theorem Defines.unique {lines : List Line} (distinct : (labelsOf lines).Nodup) {k k' : Nat}
    {name : String} (h : Defines lines k name) (h' : Defines lines k' name) : k = k' := by
  induction lines generalizing k k' with
  | nil =>
    obtain ⟨line, there, -⟩ := h
    cases there
  | cons first rest ih =>
    rw [labelsOf_cons, List.nodup_append] at distinct
    -- The first line cannot share its label with a later one.
    have apart {j : Nat} (here : Defines (first :: rest) 0 name)
        (there : Defines (first :: rest) (j + 1) name) : False := by
      obtain ⟨line, found, label⟩ := here
      obtain ⟨line', found', label'⟩ := there
      cases found
      have later : name ∈ labelsOf rest :=
        List.mem_filterMap.mpr ⟨line', List.mem_of_getElem? found', label'⟩
      exact distinct.2.2 name (by simp [label]) name later rfl
    cases k with
    | zero =>
      cases k' with
      | zero => rfl
      | succ k' => exact (apart h h').elim
    | succ k =>
      cases k' with
      | zero => exact (apart h' h).elim
      | succ k' => exact congrArg (· + 1) (ih distinct.2.1 h h')

theorem get?_eq_some_iff {symbols : SymbolTable} {name : String} {symbol : Symbol} :
    symbols.get? name = some symbol ↔ (name, symbol) ∈ symbols.entries := by
  rw [SymbolTable.get?, List.lookup_eq_some_iff]
  constructor
  · rintro ⟨before, after, split, -⟩
    rw [split]
    exact List.mem_append_right _ (List.mem_cons_self ..)
  · intro member
    -- Looking up finds the first entry of the name, and there is no other before it.
    obtain ⟨before, after, split⟩ := List.append_of_mem member
    refine ⟨before, after, split, fun entry earlier => ?_⟩
    have distinct := symbols.nodup
    rw [split, List.map_append, List.nodup_append] at distinct
    have other := distinct.2.2 entry.1 (List.mem_map_of_mem earlier) name (by simp)
    exact bne_iff_ne.mpr other.symm

theorem address?_eq_some_iff {symbols : SymbolTable} {lines : List Line}
    (entries : symbols.entries = labelled 0 1 lines) {name : String} {address : Nat} :
    symbols.address? name = some address ↔
      ∃ k, Defines lines k name ∧ address = statementsBefore lines k := by
  rw [SymbolTable.address?, Option.map_eq_some_iff]
  constructor
  · rintro ⟨symbol, found, rfl⟩
    rw [get?_eq_some_iff, entries, mem_labelled_iff] at found
    obtain ⟨k, defined, rfl⟩ := found
    exact ⟨k, defined, Nat.zero_add _⟩
  · rintro ⟨k, defined, rfl⟩
    have found : (name, ⟨0 + statementsBefore lines k, 1 + k, false⟩) ∈ symbols.entries := by
      rw [entries, mem_labelled_iff]
      exact ⟨k, defined, rfl⟩
    exact ⟨_, get?_eq_some_iff.mpr found, Nat.zero_add _⟩

/-- The number of statements on the lines before the one that defines the label. -/
def labelAddress? (lines : List Line) (name : String) : Option Nat :=
  (lines.findIdx? fun line => line.label == some name).map (statementsBefore lines)

theorem labelAddress?_eq_some_iff {lines : List Line} (distinct : (labelsOf lines).Nodup)
    {name : String} {address : Nat} :
    labelAddress? lines name = some address ↔
      ∃ k, Defines lines k name ∧ address = statementsBefore lines k := by
  have found_defines {k : Nat} (found : lines.findIdx? (fun line => line.label == some name) =
      some k) : Defines lines k name := by
    obtain ⟨inside, label, -⟩ := List.findIdx?_eq_some_iff_getElem.mp found
    exact ⟨lines[k], List.getElem?_eq_getElem inside, eq_of_beq label⟩
  rw [labelAddress?, Option.map_eq_some_iff]
  constructor
  · rintro ⟨k, found, rfl⟩
    exact ⟨k, found_defines found, rfl⟩
  · rintro ⟨k, defined, rfl⟩
    cases found : lines.findIdx? fun line => line.label == some name with
    | none =>
      obtain ⟨line, there, label⟩ := defined
      have absent := List.findIdx?_eq_none_iff.mp found line (List.mem_of_getElem? there)
      simp [label] at absent
    | some k' =>
      exact ⟨k', rfl, congrArg _ ((found_defines found).unique distinct defined)⟩

theorem labelAddress?_le_length {lines : List Line} {name : String} {address : Nat}
    (known : labelAddress? lines name = some address) : address ≤ (statementsOf lines).length := by
  obtain ⟨k, -, rfl⟩ := Option.map_eq_some_iff.mp known
  exact statementsBefore_le lines k

/-- A label is looked up as the number of statements on the lines before its definition. -/
theorem address?_eq_labelAddress? {symbols : SymbolTable} {lines : List Line}
    (distinct : (labelsOf lines).Nodup) (entries : symbols.entries = labelled 0 1 lines) :
    symbols.address? = labelAddress? lines := by
  funext name
  apply Option.ext
  intro address
  rw [address?_eq_some_iff entries, labelAddress?_eq_some_iff distinct]

end Source
end Minicomputer
