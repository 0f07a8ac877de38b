import Minicomputer.Proofs.Assembly.FirstPass

/-!
# What the first pass finds wrong

The first pass stops at the first line that it does not accept.  What can be wrong with a line is
said here without a growing state: a line is judged by the lines of the text, some of which perhaps
cannot be read, and by its place among them.

* `LineProblem` -- the first check that a line fails, and what is said about it;
* `addLine_eq_error_iff_lineProblem` -- a line that is reached is judged in this way;
* `read_eq_error_iff` -- the first pass reports the first line with a problem.

Lines are counted from 0 here, and from 1 in what is reported.
-/

namespace Minicomputer

namespace Source

variable {texts : List (List Char)} {k : Nat} {name : String}

/-! ## What lines say -/

/-- The lines that can be read, as what they say. -/
def said (texts : List (List Char)) : List Line :=
  texts.filterMap fun text => (Line.parse text).toOption

/-- Line `k` can be read, and this is what it says. -/
def Says (texts : List (List Char)) (k : Nat) (line : Line) : Prop :=
  ∃ text, texts[k]? = some text ∧ Line.parse text = .ok line

/-- Line `k` defines that label. -/
def Labels (texts : List (List Char)) (k : Nat) (name : String) : Prop :=
  ∃ line, Says texts k line ∧ line.label = some name

/-- The first check that line `k` fails: it can be read, its label is no register and new, and there
is an address for its statement. -/
inductive LineProblem (texts : List (List Char)) (k : Nat) : AssemblyProblem → Prop
  | notUnderstood {text rest : List Char} (there : texts[k]? = some text)
      (unread : Line.parse text = .error rest) :
      LineProblem texts k (.notUnderstood (String.ofList (Text.trimChars rest)))
  | invalidLabel {name : String} (label : Labels texts k name)
      (register : Register.number? name.toList ≠ none) :
      LineProblem texts k (.invalidLabel name)
  | duplicateLabel {name : String} {first : Nat} (label : Labels texts k name)
      (noRegister : Register.number? name.toList = none) (earlier : first < k)
      (defined : Labels texts first name) (least : ∀ j < first, ¬ Labels texts j name) :
      LineProblem texts k (.duplicateLabel name (first + 1))
  | programTooLarge {line : Line} (read : Says texts k line) (stated : line.statement ≠ none)
      (fresh : ∀ name, line.label = some name →
        Register.number? name.toList = none ∧ ∀ j < k, ¬ Labels texts j name)
      (full : maxStatements ≤ (statementsOf (said (texts.take k))).length) :
      LineProblem texts k .programTooLarge

theorem said_of_parse {lines : List Line} (parses : texts.map Line.parse = lines.map Except.ok) :
    said texts = lines := by
  induction texts generalizing lines with
  | nil =>
    cases lines with
    | nil => rfl
    | cons line lines => cases parses
  | cons text texts ih =>
    cases lines with
    | nil => cases parses
    | cons line lines =>
      have read := List.cons.inj parses
      rw [said, List.filterMap_cons, read.1]
      exact congrArg (line :: ·) (ih read.2)

/-- If all lines can be read, what they say is what is found in their places. -/
theorem says_iff_getElem? {lines : List Line} (parses : texts.map Line.parse = lines.map Except.ok)
    {line : Line} : Says texts k line ↔ lines[k]? = some line := by
  have place : (texts[k]?).map Line.parse = (lines[k]?).map Except.ok := by
    rw [← List.getElem?_map, ← List.getElem?_map, parses]
  constructor
  · rintro ⟨text, there, read⟩
    rw [there, Option.map_some, read] at place
    obtain ⟨line', found, same⟩ := Option.map_eq_some_iff.mp place.symm
    cases same
    exact found
  · intro found
    rw [found, Option.map_some] at place
    exact Option.map_eq_some_iff.mp place

theorem labels_iff_defines {lines : List Line}
    (parses : texts.map Line.parse = lines.map Except.ok) :
    Labels texts k name ↔ Defines lines k name := by
  simp only [Labels, Defines, says_iff_getElem? parses]

theorem says_take_iff {n : Nat} {line : Line} :
    Says (texts.take n) k line ↔ k < n ∧ Says texts k line := by
  by_cases inside : k < n
  · simp [Says, inside]
  · simp [Says, inside]

theorem labels_take_iff {n : Nat} : Labels (texts.take n) k name ↔ k < n ∧ Labels texts k name := by
  simp only [Labels, says_take_iff, and_assoc, exists_and_left]

/-! ## One line -/

theorem addLabel_eq_error_iff {source : Source} {line : Nat} {label : Option String}
    {error : AssemblyError} :
    source.addLabel line label = .error error ↔
      ∃ name, label = some name ∧
        (Register.number? name.toList ≠ none ∧ error = ⟨line, .invalidLabel name⟩ ∨
          Register.number? name.toList = none ∧ ∃ symbol,
            source.symbols.get? name = some symbol ∧
              error = ⟨line, .duplicateLabel name symbol.line⟩) := by
  cases label with
  | none => simp [addLabel]
  | some name =>
    simp only [addLabel, Option.some.injEq, exists_eq_left']
    cases register : Register.number? name.toList with
    | some number => simp [eq_comm]
    | none =>
      simp only [Option.isSome_none, Bool.false_eq_true, if_false, ne_eq, not_true_eq_false,
        false_and, true_and, false_or]
      unfold SymbolTable.define
      split
      next first found =>
        split at found
        next symbol known =>
          cases found
          simp [known, eq_comm]
        next => cases found
      next symbols found =>
        split at found
        next => cases found
        next unknown => simp [unknown]

theorem addStatement_eq_error_iff {source : Source} {line : Nat} {statement : Option Statement}
    {error : AssemblyError} :
    source.addStatement line statement = .error error ↔
      statement ≠ none ∧ source.statements.size = maxStatements ∧
        error = ⟨line, .programTooLarge⟩ := by
  cases statement with
  | none => simp [addStatement]
  | some statement =>
    by_cases full : source.statements.size = maxStatements
    · simp [addStatement, full, eq_comm]
    · simp [addStatement, full]

theorem addLine_eq_error_iff {source : Source} {line : Nat} {text : List Char}
    {error : AssemblyError} :
    source.addLine line text = .error error ↔
      (∃ rest, Line.parse text = .error rest ∧
          error = ⟨line, .notUnderstood (String.ofList (Text.trimChars rest))⟩) ∨
        ∃ parsed, Line.parse text = .ok parsed ∧
          (source.addLabel line parsed.label = .error error ∨
            ∃ next, source.addLabel line parsed.label = .ok next ∧
              next.addStatement line parsed.statement = .error error) := by
  unfold addLine
  cases Line.parse text with
  | error rest => simp [eq_comm]
  | ok parsed =>
    simp only [reduceCtorEq, false_and, exists_false, false_or, Except.ok.injEq, exists_eq_left']
    cases source.addLabel line parsed.label with
    | error problem => simp [bind, Except.bind]
    | ok next => simp [bind, Except.bind]

/-! ## A line that is reached -/

section Reached

variable {source : Source} {text : List Char}

/-- What the table knows when line `k` is reached: the labels of the lines before it. -/
theorem get?_of_reached (reached : empty.addLines 1 (texts.take k) = .ok source) (number : Nat) :
    (∃ symbol, source.symbols.get? name = some symbol ∧ symbol.line = number) ↔
      ∃ first < k, Labels texts first name ∧ (∀ j < first, ¬ Labels texts j name) ∧
        number = first + 1 := by
  obtain ⟨lines, parses, admitted, -, entries⟩ := (addLines_eq_ok_iff (Nat.zero_le _)).mp reached
  have acceptable := admitsAll_empty_iff.mp admitted
  have places (j : Nat) : Defines lines j name ↔ j < k ∧ Labels texts j name :=
    (labels_iff_defines parses).symm.trans labels_take_iff
  have entry (symbol : Symbol) : source.symbols.get? name = some symbol ↔
      ∃ j, Defines lines j name ∧ symbol = ⟨0 + statementsBefore lines j, 1 + j, false⟩ := by
    rw [get?_eq_some_iff, entries]
    exact mem_labelled_iff
  constructor
  · rintro ⟨symbol, found, rfl⟩
    obtain ⟨first, defined, rfl⟩ := (entry symbol).mp found
    have ⟨inside, label⟩ := (places first).mp defined
    refine ⟨first, inside, label, ?_, Nat.add_comm 1 first⟩
    -- The lines before are accepted, so no two of them share a label.
    intro j earlier label'
    have defined' := (places j).mpr ⟨earlier.trans inside, label'⟩
    exact absurd (defined'.unique acceptable.distinct defined) (Nat.ne_of_lt earlier)
  · rintro ⟨first, inside, label, -, rfl⟩
    have defined := (places first).mpr ⟨inside, label⟩
    exact ⟨_, (entry _).mpr ⟨first, defined, rfl⟩, Nat.add_comm 1 first⟩

/-- A name is unknown when line `k` is reached if no line before it defines it. -/
theorem get?_eq_none_of_reached (reached : empty.addLines 1 (texts.take k) = .ok source) :
    source.symbols.get? name = none ↔ ∀ j < k, ¬ Labels texts j name := by
  constructor
  · intro unknown j
    induction j using Nat.strong_induction_on with
    | h j ih =>
      intro earlier label
      have least : ∀ i < j, ¬ Labels texts i name := fun i before =>
        ih i before (before.trans earlier)
      obtain ⟨symbol, found, -⟩ :=
        (get?_of_reached reached (j + 1)).mpr ⟨j, earlier, label, least, rfl⟩
      rw [unknown] at found
      cases found
  · intro absent
    cases found : source.symbols.get? name with
    | none => rfl
    | some symbol =>
      obtain ⟨first, earlier, label, -⟩ :=
        (get?_of_reached reached symbol.line).mp ⟨symbol, found, rfl⟩
      exact absurd label (absent first earlier)

theorem size_of_reached (reached : empty.addLines 1 (texts.take k) = .ok source) :
    source.statements.size = (statementsOf (said (texts.take k))).length ∧
      source.statements.size ≤ maxStatements := by
  obtain ⟨lines, parses, admitted, statements, -⟩ :=
    (addLines_eq_ok_iff (Nat.zero_le _)).mp reached
  have size : source.statements.size = (statementsOf lines).length := by
    calc source.statements.size
        = (source.statements.toList.map NumberedStatement.statement).length := by simp
      _ = ((numbered 1 lines).map NumberedStatement.statement).length := by
        rw [statements]
        rfl
      _ = (statementsOf lines).length := by rw [map_statement_numbered]
  rw [said_of_parse parses, size]
  exact ⟨rfl, (admitsAll_empty_iff.mp admitted).fits⟩

/-- A line that is reached is judged by its first problem. -/
theorem addLine_eq_error_iff_lineProblem (reached : empty.addLines 1 (texts.take k) = .ok source)
    (there : texts[k]? = some text) {error : AssemblyError} :
    source.addLine (1 + k) text = .error error ↔
      ∃ problem, LineProblem texts k problem ∧ error = ⟨1 + k, problem⟩ := by
  have ⟨size, bound⟩ := size_of_reached reached
  have speaks {line : Line} : Says texts k line ↔ Line.parse text = .ok line := by
    simp [Says, there]
  rw [addLine_eq_error_iff]
  constructor
  · rintro (⟨rest, unread, rfl⟩ | ⟨parsed, read, wrong | ⟨next, added, wrong⟩⟩)
    · exact ⟨_, .notUnderstood there unread, rfl⟩
    · obtain ⟨name, label, ⟨register, rfl⟩ | ⟨noRegister, symbol, found, rfl⟩⟩ :=
        addLabel_eq_error_iff.mp wrong
      · exact ⟨_, .invalidLabel ⟨parsed, speaks.mpr read, label⟩ register, rfl⟩
      · obtain ⟨first, earlier, defined, least, number⟩ :=
          (get?_of_reached reached symbol.line).mp ⟨symbol, found, rfl⟩
        rw [number]
        exact ⟨_, .duplicateLabel ⟨parsed, speaks.mpr read, label⟩ noRegister earlier defined least,
          rfl⟩
    · obtain ⟨fresh, statements, -⟩ := addLabel_eq_ok_iff.mp added
      obtain ⟨stated, full, rfl⟩ := addStatement_eq_error_iff.mp wrong
      rw [statements, size] at full
      refine ⟨_, .programTooLarge (speaks.mpr read) stated ?_ full.ge, rfl⟩
      intro name label
      exact ⟨(fresh name label).1, (get?_eq_none_of_reached reached).mp (fresh name label).2⟩
  · rintro ⟨problem, wrong, rfl⟩
    cases wrong with
    | notUnderstood there' unread =>
      cases there.symm.trans there'
      exact .inl ⟨_, unread, rfl⟩
    | invalidLabel label register =>
      obtain ⟨parsed, read, label⟩ := label
      refine .inr ⟨parsed, speaks.mp read, .inl ?_⟩
      exact addLabel_eq_error_iff.mpr ⟨_, label, .inl ⟨register, rfl⟩⟩
    | duplicateLabel label noRegister earlier defined least =>
      obtain ⟨parsed, read, label⟩ := label
      obtain ⟨symbol, found, number⟩ :=
        (get?_of_reached reached _).mpr ⟨_, earlier, defined, least, rfl⟩
      refine .inr ⟨parsed, speaks.mp read, .inl ?_⟩
      refine addLabel_eq_error_iff.mpr ⟨_, label, .inr ⟨noRegister, symbol, found, ?_⟩⟩
      rw [number]
    | @programTooLarge parsed read stated fresh full =>
      -- The label is accepted, because only what is wrong with it could stop the line earlier.
      cases added : source.addLabel (1 + k) parsed.label with
      | error problem =>
        exfalso
        obtain ⟨name, label, ⟨register, -⟩ | ⟨-, symbol, found, -⟩⟩ :=
          addLabel_eq_error_iff.mp added
        · exact register (fresh name label).1
        · rw [(get?_eq_none_of_reached reached).mpr (fresh name label).2] at found
          cases found
      | ok next =>
        obtain ⟨-, statements, -⟩ := addLabel_eq_ok_iff.mp added
        refine .inr ⟨parsed, speaks.mp read, .inr ⟨next, added, ?_⟩⟩
        refine addStatement_eq_error_iff.mpr ⟨stated, ?_, rfl⟩
        rw [statements]
        omega

end Reached

/-! ## All lines -/

theorem addLines_append (source : Source) (line : Nat) (before after : List (List Char)) :
    source.addLines line (before ++ after) =
      source.addLines line before >>= fun next => next.addLines (line + before.length) after := by
  induction before generalizing source line with
  | nil => rfl
  | cons text before ih =>
    rw [List.cons_append, addLines_cons, addLines_cons]
    cases source.addLine line text with
    | error problem => rfl
    | ok next =>
      have moved := ih next (line + 1)
      rw [Nat.add_assoc, Nat.add_comm 1] at moved
      exact moved

theorem addLines_take_succ (source : Source) (line : Nat) {text : List Char}
    (there : texts[k]? = some text) :
    source.addLines line (texts.take (k + 1)) =
      source.addLines line (texts.take k) >>= fun next => next.addLine (line + k) text := by
  have inside : k ≤ texts.length := (List.getElem?_eq_some_iff.mp there).1.le
  rw [List.take_add_one, there, addLines_append, List.length_take_of_le inside]
  refine congrArg _ (funext fun next => ?_)
  rw [Option.toList_some, addLines_cons]
  exact bind_pure _

/-- The first line that is not accepted is the one that is reported. -/
theorem addLines_eq_error_iff {source : Source} {line : Nat} {error : AssemblyError} :
    source.addLines line texts = .error error ↔
      ∃ k text next, texts[k]? = some text ∧ source.addLines line (texts.take k) = .ok next ∧
        next.addLine (line + k) text = .error error := by
  induction texts generalizing source line with
  | nil =>
    constructor
    · intro h
      cases h
    · rintro ⟨k, text, next, there, -⟩
      cases there
  | cons first rest ih =>
    rw [addLines_cons]
    cases added : source.addLine line first with
    | error problem =>
      constructor
      · intro h
        exact ⟨0, first, source, rfl, rfl, added.trans h⟩
      · rintro ⟨k, text, next, there, accepted, wrong⟩
        cases k with
        | zero =>
          cases there
          cases accepted
          exact added.symm.trans wrong
        | succ k =>
          rw [List.take_succ_cons, addLines_cons, added] at accepted
          cases accepted
    | ok middle =>
      refine Iff.trans ih ?_
      constructor
      · rintro ⟨k, text, next, there, accepted, wrong⟩
        refine ⟨k + 1, text, next, there, ?_, ?_⟩
        · rw [List.take_succ_cons, addLines_cons, added]
          exact accepted
        · rw [← Nat.add_assoc, Nat.add_right_comm]
          exact wrong
      · rintro ⟨k, text, next, there, accepted, wrong⟩
        cases k with
        | zero =>
          cases there
          cases accepted
          cases added.symm.trans wrong
        | succ k =>
          rw [List.take_succ_cons, addLines_cons, added] at accepted
          rw [← Nat.add_assoc, Nat.add_right_comm] at wrong
          exact ⟨k, text, next, there, accepted, wrong⟩

theorem LineProblem.exists_text {problem : AssemblyProblem} (wrong : LineProblem texts k problem) :
    ∃ text, texts[k]? = some text := by
  cases wrong with
  | notUnderstood there unread => exact ⟨_, there⟩
  | invalidLabel label register =>
    obtain ⟨line, ⟨text, there, -⟩, -⟩ := label
    exact ⟨text, there⟩
  | duplicateLabel label noRegister earlier defined least =>
    obtain ⟨line, ⟨text, there, -⟩, -⟩ := label
    exact ⟨text, there⟩
  | programTooLarge read stated fresh full =>
    obtain ⟨text, there, -⟩ := read
    exact ⟨text, there⟩

/-- Lines are accepted exactly if none of them has a problem. -/
theorem exists_addLines_take_iff :
    (∃ source, empty.addLines 1 (texts.take k) = .ok source) ↔
      ∀ j < k, ∀ problem, ¬ LineProblem texts j problem := by
  induction k with
  | zero =>
    constructor
    · intro _ j earlier
      cases earlier
    · intro _
      exact ⟨empty, rfl⟩
  | succ k ih =>
    constructor
    · rintro ⟨source, accepted⟩ j earlier problem wrong
      obtain ⟨text, there⟩ := wrong.exists_text
      by_cases last : j = k
      · subst last
        rw [addLines_take_succ empty 1 there, bind_eq_ok_iff] at accepted
        obtain ⟨next, reached, added⟩ := accepted
        have refused := (addLine_eq_error_iff_lineProblem reached there).mpr ⟨problem, wrong, rfl⟩
        cases added.symm.trans refused
      · -- A list of lines is accepted only if the lines before its last are.
        have inside : j < k := by omega
        have reached : ∃ next, empty.addLines 1 (texts.take k) = .ok next := by
          rw [List.take_add_one, addLines_append, bind_eq_ok_iff] at accepted
          obtain ⟨next, reached, -⟩ := accepted
          exact ⟨next, reached⟩
        exact ih.mp reached j inside problem wrong
    · intro fine
      obtain ⟨next, reached⟩ := ih.mpr fun j earlier => fine j (Nat.lt_succ_of_lt earlier)
      cases there : texts[k]? with
      | none =>
        rw [List.take_add_one, there, Option.toList_none, List.append_nil]
        exact ⟨next, reached⟩
      | some text =>
        rw [addLines_take_succ empty 1 there, reached]
        cases added : next.addLine (1 + k) text with
        | ok source => exact ⟨source, added⟩
        | error error =>
          obtain ⟨problem, wrong, -⟩ := (addLine_eq_error_iff_lineProblem reached there).mp added
          exact absurd wrong (fine k (Nat.lt_succ_self k) problem)

/-- No line has a problem. -/
def Fine (texts : List (List Char)) : Prop :=
  ∀ k problem, ¬ LineProblem texts k problem

theorem fine_iff : Fine texts ↔ ∃ source, empty.addLines 1 texts = .ok source := by
  have all : (∃ source, empty.addLines 1 (texts.take texts.length) = .ok source) ↔
      ∀ j < texts.length, ∀ problem, ¬ LineProblem texts j problem := exists_addLines_take_iff
  rw [List.take_length] at all
  rw [all]
  constructor
  · intro fine k _
    exact fine k
  · intro fine k problem wrong
    obtain ⟨text, there⟩ := wrong.exists_text
    exact fine k (List.getElem?_eq_some_iff.mp there).1 problem wrong

/-- The first pass reports the first line that has a problem, and the first check it fails. -/
theorem read_eq_error_iff {text : String} {error : AssemblyError} :
    read text = .error error ↔
      ∃ k problem, LineProblem (Text.lines text.toList) k problem ∧
        (∀ j < k, ∀ problem, ¬ LineProblem (Text.lines text.toList) j problem) ∧
        error = ⟨k + 1, problem⟩ := by
  rw [read, addLines_eq_error_iff]
  constructor
  · rintro ⟨k, line, next, there, reached, refused⟩
    obtain ⟨problem, wrong, rfl⟩ := (addLine_eq_error_iff_lineProblem reached there).mp refused
    rw [Nat.add_comm 1 k]
    exact ⟨k, problem, wrong, exists_addLines_take_iff.mp ⟨next, reached⟩, rfl⟩
  · rintro ⟨k, problem, wrong, first, rfl⟩
    obtain ⟨line, there⟩ := wrong.exists_text
    obtain ⟨next, reached⟩ := exists_addLines_take_iff.mpr first
    refine ⟨k, line, next, there, reached, ?_⟩
    rw [Nat.add_comm k 1]
    exact (addLine_eq_error_iff_lineProblem reached there).mpr ⟨problem, wrong, rfl⟩

end Source
end Minicomputer
