import Minicomputer.Proofs.Assembly.Completeness

/-!
# Reading a line

The reader of lines against the trees of `Minicomputer.Grammar`: what is read is in the grammar, and
what is in the grammar is read (`Minicomputer.Proofs.Assembly.Completeness`).

* `exists_line_of_parse` -- a line that is read is a line of the grammar;
* `parse_accepts_exactly_the_grammar` -- the two directions together.
-/

namespace Minicomputer
namespace Grammar

/-! ## The parts of a line

Only the characters have to be accounted for: what a tree says is already known to be what is read
from its text. -/

theorem exists_spaces (cs : List Char) :
    ∃ spaces : Spaces, cs = spaces.text ++ Line.skipSpaces cs := by
  refine ⟨⟨cs.takeWhile Line.isSpace, fun c member => ?_⟩, ?_⟩
  · exact isSpace_iff.mp (List.mem_takeWhile_imp member)
  · exact List.takeWhile_append_dropWhile.symm

theorem exists_word {cs rest : List Char} {name : String}
    (h : Line.word? cs = some (name, rest)) : ∃ word : Word, cs = word.text ++ rest := by
  cases cs with
  | nil => cases h
  | cons c cs =>
    rw [Line.word?] at h
    split at h
    next starts =>
      cases h
      refine ⟨⟨c, cs.takeWhile Line.isWordRest, isWordStart_iff.mp starts, fun d member => ?_⟩, ?_⟩
      · exact isWordRest_iff.mp (List.mem_takeWhile_imp member)
      · rw [Word.text, List.cons_append, List.takeWhile_append_dropWhile]
    next => cases h

theorem exists_digits (base : Base) {cs rest : List Char} {value : Nat}
    (h : Line.digits? base.radix cs = some (value, rest)) :
    ∃ digits : Digits base, digits.value ≤ 2 ^ 63 - 1 ∧ cs = digits.text ++ rest := by
  simp only [Line.digits?] at h
  split at h
  next found =>
    cases h
    have areDigits : ∀ c ∈ cs.takeWhile (Text.isDigitOf base.radix), base.IsDigit c :=
      fun c member => isDigitOf_iff.mp (List.mem_takeWhile_imp member)
    refine ⟨⟨_, found.1, areDigits⟩, ?_, List.takeWhile_append_dropWhile.symm⟩
    rw [Digits.value, ← digitsValue_eq base areDigits]
    exact found.2
  next => cases h

theorem exists_hexadecimal {cs rest : List Char} {value : Nat}
    (h : Line.hexadecimal? cs = some (value, rest)) :
    ∃ magnitude : Magnitude, magnitude.value ≤ 2 ^ 63 - 1 ∧ cs = magnitude.text ++ rest := by
  unfold Line.hexadecimal? at h
  split at h
  next tail =>
    rcases exists_digits .hexadecimal h with ⟨digits, small, rfl⟩
    exact ⟨.hexadecimal 'x' (.inl rfl) digits, small, rfl⟩
  next tail =>
    rcases exists_digits .hexadecimal h with ⟨digits, small, rfl⟩
    exact ⟨.hexadecimal 'X' (.inr rfl) digits, small, rfl⟩
  next => cases h

theorem exists_magnitude {cs rest : List Char} {value : Nat}
    (h : Line.magnitude? cs = some (value, rest)) :
    ∃ magnitude : Magnitude, magnitude.value ≤ 2 ^ 63 - 1 ∧ cs = magnitude.text ++ rest := by
  rw [Line.magnitude?] at h
  split at h
  next found =>
    cases h
    exact exists_hexadecimal found
  next =>
    rcases exists_digits .decimal h with ⟨digits, small, same⟩
    exact ⟨.decimal digits, small, same⟩

theorem exists_number {cs rest : List Char} {value : Int}
    (h : Line.number? cs = some (value, rest)) : ∃ number : Number, cs = number.text ++ rest := by
  unfold Line.number? at h
  split at h
  next tail =>
    obtain ⟨⟨_, _⟩, found, same⟩ := Option.map_eq_some_iff.mp h
    cases same
    rcases exists_magnitude found with ⟨magnitude, small, rfl⟩
    exact ⟨⟨true, magnitude, small⟩, rfl⟩
  next =>
    obtain ⟨⟨_, _⟩, found, same⟩ := Option.map_eq_some_iff.mp h
    cases same
    rcases exists_magnitude found with ⟨magnitude, small, rfl⟩
    exact ⟨⟨false, magnitude, small⟩, rfl⟩

theorem exists_operand {cs rest : List Char} {operand : Minicomputer.Operand}
    (h : Line.operand? cs = some (operand, rest)) :
    ∃ tree : Operand, cs = tree.text ++ rest := by
  rw [Line.operand?] at h
  split at h
  next found =>
    cases h
    rcases exists_number found with ⟨number, same⟩
    exact ⟨.number number, same⟩
  next =>
    obtain ⟨⟨_, _⟩, found, same⟩ := Option.map_eq_some_iff.mp h
    cases same
    rcases exists_word found with ⟨word, same⟩
    exact ⟨.word word, same⟩

theorem exists_comma {cs start : List Char} (h : Line.afterComma? cs = some start) :
    ∃ before after : Spaces, cs = before.text ++ ',' :: (after.text ++ start) := by
  rw [Line.afterComma?] at h
  split at h
  next rest found =>
    cases h
    rcases exists_spaces cs with ⟨before, same⟩
    rcases exists_spaces rest with ⟨after, same'⟩
    refine ⟨before, after, ?_⟩
    rw [← same', ← found]
    exact same
  next => cases h

theorem exists_furtherOperands (cs : List Char) :
    ∃ further : List FurtherOperand,
      cs = further.flatMap FurtherOperand.text ++ (Line.moreOperands cs).2 := by
  -- Each operand is read from what the operand before it has left, so the induction is on the call.
  fun_induction Line.moreOperands cs with
  | case1 cs comma => exact ⟨[], rfl⟩
  | case2 cs start comma found => exact ⟨[], rfl⟩
  | case3 cs start comma operand rest found operands left result ih =>
    rcases exists_comma comma with ⟨before, after, rfl⟩
    rcases exists_operand found with ⟨tree, rfl⟩
    rcases ih with ⟨further, same⟩
    rw [result] at same
    refine ⟨⟨before, after, tree⟩ :: further, ?_⟩
    rw [List.flatMap_cons, FurtherOperand.text]
    simp only [List.append_assoc, List.cons_append]
    rw [← same]

theorem exists_operands (cs : List Char) :
    ∃ operands : Option Operands,
      cs = textOf Operands.text operands ++ (Line.operands cs).2 := by
  rw [Line.operands]
  split
  next => exact ⟨none, rfl⟩
  next operand rest found =>
    rcases exists_operand found with ⟨first, rfl⟩
    rcases exists_furtherOperands rest with ⟨further, same⟩
    refine ⟨some ⟨first, further⟩, ?_⟩
    show _ = first.text ++ further.flatMap FurtherOperand.text ++ (Line.moreOperands rest).2
    rw [List.append_assoc, ← same]

theorem exists_statement {cs rest : List Char} {statement : Minicomputer.Statement}
    (h : Line.statement? cs = some (statement, rest)) :
    ∃ tree : Statement, cs = tree.text ++ rest := by
  rw [Line.statement?] at h
  split at h
  next => cases h
  next mnemonic found =>
    cases h
    rcases exists_word found with ⟨word, rfl⟩
    exact ⟨⟨word, none⟩, by simp [Statement.text, textOf]⟩
  next mnemonic c more found =>
    rcases exists_word found with ⟨word, rfl⟩
    split at h
    next space =>
      cases h
      rcases exists_spaces more with ⟨gap, same⟩
      rcases exists_operands (Line.skipSpaces more) with ⟨operands, same'⟩
      -- The first space is asked for and the others are skipped; in the tree they are one run.
      have areSpaces : ∀ d ∈ c :: gap.text, IsSpace d := by
        intro d member
        rcases List.mem_cons.mp member with rfl | inGap
        · exact isSpace_iff.mp space
        · exact gap.areSpaces d inGap
      refine ⟨⟨word, some ⟨⟨c :: gap.text, areSpaces⟩, List.cons_ne_nil c _, operands⟩⟩, ?_⟩
      show _ = word.text ++ (c :: gap.text ++ textOf Operands.text operands) ++
        (Line.operands (Line.skipSpaces more)).2
      simp only [List.append_assoc, List.cons_append]
      rw [← same', ← same]
    next =>
      cases h
      exact ⟨⟨word, none⟩, by simp [Statement.text, textOf]⟩

theorem exists_label {cs rest : List Char} {name : String}
    (h : Line.label? cs = some (name, rest)) : ∃ label : Label, cs = label.text ++ rest := by
  rw [Line.label?] at h
  split at h
  next => cases h
  next name' left found =>
    split at h
    next rest' colon =>
      cases h
      rcases exists_word found with ⟨word, rfl⟩
      rcases exists_spaces left with ⟨gap, same⟩
      refine ⟨⟨word, gap⟩, ?_⟩
      rw [colon] at same
      rw [same, Label.text]
      simp
    next => cases h

theorem exists_optional {α τ : Type} {part? : List Char → Option (α × List Char)}
    {text : τ → List Char}
    (sound : ∀ cs rest part, part? cs = some (part, rest) → ∃ tree, cs = text tree ++ rest)
    (cs : List Char) :
    ∃ tree : Option τ, cs = textOf text tree ++ (Line.optional part? cs).2 := by
  rw [Line.optional]
  split
  next part rest found =>
    rcases sound cs rest part found with ⟨tree, same⟩
    exact ⟨some tree, same⟩
  next => exact ⟨none, rfl⟩

theorem exists_comment {cs : List Char} (h : Line.skipComment cs = []) :
    ∃ comment : Option Comment, cs = textOf Comment.text comment := by
  unfold Line.skipComment at h
  split at h
  next body => exact ⟨some ⟨';', .inl rfl, body⟩, rfl⟩
  next body => exact ⟨some ⟨'#', .inr rfl, body⟩, rfl⟩
  next => exact ⟨none, h⟩

/-! ## Lines -/

/-- A line that is read is in the grammar. -/
theorem exists_line_of_parse {cs : List Char} {line : Minicomputer.Line}
    (h : Line.parse cs = .ok line) : ∃ tree : Line, tree.text = cs := by
  rw [Line.parse] at h
  split at h
  next line' scanned =>
    -- From the left to the right, each part from what the part before it has left.
    rcases exists_spaces cs with ⟨lead, same⟩
    rcases exists_optional (fun _ _ _ => exists_label) (Line.skipSpaces cs) with ⟨label, labelled⟩
    generalize labels : Line.optional Line.label? (Line.skipSpaces cs) = labelAndRest at labelled
    rcases exists_spaces labelAndRest.2 with ⟨gap, same'⟩
    rcases exists_optional (fun _ _ _ => exists_statement) (Line.skipSpaces labelAndRest.2) with
      ⟨statement, stated⟩
    generalize states : Line.optional Line.statement? (Line.skipSpaces labelAndRest.2) =
      statementAndRest at stated
    rcases exists_spaces statementAndRest.2 with ⟨trail, same''⟩
    have left : Line.skipComment (Line.skipSpaces statementAndRest.2) = [] := by
      have second := congrArg Prod.snd scanned
      simpa only [Line.scan, labels, states] using second
    rcases exists_comment left with ⟨comment, commented⟩
    refine ⟨⟨lead, label, gap, statement, trail, comment⟩, ?_⟩
    rw [Line.text, ← commented, ← same'', ← stated, ← same', ← labelled, ← same]
  next => cases h

/-- A line is read exactly if the grammar derives it.  Then what is read is what its derivation
says, and all its derivations say the same. -/
theorem parse_accepts_exactly_the_grammar (cs : List Char) :
    ((∃ line, Line.parse cs = .ok line) ↔ ∃ tree : Line, tree.text = cs) ∧
      ∀ tree : Line, tree.text = cs →
        Line.parse cs = .ok tree.line ∧ ∀ tree' : Line, tree'.text = cs → tree'.line = tree.line := by
  refine ⟨⟨?_, ?_⟩, ?_⟩
  · rintro ⟨line, read⟩
    exact exists_line_of_parse read
  · rintro ⟨tree, rfl⟩
    exact ⟨tree.line, parse_text tree⟩
  · rintro tree rfl
    refine ⟨parse_text tree, fun tree' same => ?_⟩
    have read : Line.parse tree.text = .ok tree'.line := same ▸ parse_text tree'
    exact Except.ok.inj (read.symm.trans (parse_text tree))

end Grammar
end Minicomputer
