import Minicomputer.Proofs.Assembly.Characters

/-!
# A line of the grammar is read

Reading is greedy and a derivation is not, so completeness is proved in terms of what follows a
part: a scanner takes the text of a tree and nothing else when the next character cannot belong to
the part (`Begins`).  The parts of a line follow each other such that this is always so.

* `parse_text` -- a line of the grammar is read, as what its tree says.
-/

namespace Minicomputer
namespace Grammar

/-! ## Words, numbers and operands -/

theorem skipSpaces_append (spaces : Spaces) {rest : List Char} (h : Begins (¬ IsSpace ·) rest) :
    Line.skipSpaces (spaces.text ++ rest) = rest :=
  dropWhile_append (fun _ => isSpace_iff) spaces.areSpaces h

theorem word?_append (word : Word) {rest : List Char} (h : Begins (¬ ContinuesWord ·) rest) :
    Line.word? (word.text ++ rest) = some (word.name, rest) := by
  have starts : Line.isWordStart word.first = true := isWordStart_iff.mpr word.starts
  have taken := takeWhile_append (fun _ => isWordRest_iff) word.continues h
  have left := dropWhile_append (fun _ => isWordRest_iff) word.continues h
  rw [Word.text, List.cons_append, Line.word?, if_pos starts, taken, left]
  rfl

theorem digits?_append {base : Base} (digits : Digits base) (small : digits.value ≤ 2 ^ 63 - 1)
    {rest : List Char} (h : Begins (¬ ContinuesWord ·) rest) :
    Line.digits? base.radix (digits.text ++ rest) = some (digits.value, rest) := by
  -- A digit of either base may also continue a word, so what ends a word ends the digits.
  have stop : Begins (¬ base.IsDigit ·) rest :=
    h.imp fun _ outside digit => outside (continuesWord_of_isDigit digit)
  have taken := takeWhile_append (fun _ => isDigitOf_iff) digits.areDigits stop
  have left := dropWhile_append (fun _ => isDigitOf_iff) digits.areDigits stop
  have value : Text.digitsValue base.radix digits.text = digits.value :=
    digitsValue_eq base digits.areDigits
  simp only [Line.digits?, taken, left, value]
  exact if_pos ⟨digits.some_digit, small⟩

/-- Decimal digits never look like the start of a hexadecimal number. -/
theorem digits_append_ne (digits : Digits .decimal) {rest : List Char}
    (h : Begins (¬ ContinuesWord ·) rest) {mark : Char} (isMark : mark = 'x' ∨ mark = 'X')
    (tail : List Char) : digits.text ++ rest ≠ '0' :: mark :: tail := by
  rcases digits with ⟨text, some_digit, areDigits⟩
  intro same
  match text, some_digit with
  | [c], _ =>
    -- The mark would be the first character behind the digits.
    have inWord : ContinuesWord mark := by
      rcases isMark with rfl | rfl <;> decide
    have next : rest = mark :: tail := (List.cons.inj same).2
    exact h mark (by rw [next]; rfl) inWord
  | c :: d :: more, _ =>
    -- The mark would be the second digit.
    have next : d = mark := (List.cons.inj (List.cons.inj same).2).1
    have digit : IsDigit mark := next ▸ areDigits d (by simp)
    rcases isMark with rfl | rfl
    · exact absurd digit (by decide)
    · exact absurd digit (by decide)

theorem magnitude?_append (magnitude : Magnitude) (small : magnitude.value ≤ 2 ^ 63 - 1)
    {rest : List Char} (h : Begins (¬ ContinuesWord ·) rest) :
    Line.magnitude? (magnitude.text ++ rest) = some (magnitude.value, rest) := by
  cases magnitude with
  | decimal digits =>
    -- The hexadecimal reading is tried first and must not get hold of decimal digits.
    have noMark : Line.hexadecimal? (digits.text ++ rest) = none := by
      unfold Line.hexadecimal?
      split
      next tail same => exact absurd same (digits_append_ne digits h (.inl rfl) tail)
      next tail same => exact absurd same (digits_append_ne digits h (.inr rfl) tail)
      next => rfl
    rw [Magnitude.text, Line.magnitude?, noMark]
    exact digits?_append digits small h
  | hexadecimal mark isMark digits =>
    have found : Line.hexadecimal? ('0' :: mark :: digits.text ++ rest) =
        some (digits.value, rest) := by
      rcases isMark with rfl | rfl
      · exact digits?_append digits small h
      · exact digits?_append digits small h
    rw [Magnitude.text, Line.magnitude?, found]
    rfl

/-- Magnitudes start with a decimal digit, whatever their base. -/
theorem Magnitude.exists_cons (magnitude : Magnitude) :
    ∃ c cs, magnitude.text = c :: cs ∧ IsDigit c := by
  cases magnitude with
  | decimal digits =>
    rcases digits with ⟨text, some_digit, areDigits⟩
    cases text with
    | nil => exact absurd rfl some_digit
    | cons c cs => exact ⟨c, cs, rfl, areDigits c (List.mem_cons_self ..)⟩
  | hexadecimal mark isMark digits => exact ⟨'0', _, rfl, by decide⟩

theorem number?_append (number : Number) {rest : List Char}
    (h : Begins (¬ ContinuesWord ·) rest) :
    Line.number? (number.text ++ rest) = some (number.value, rest) := by
  rcases number with ⟨negative, magnitude, small⟩
  have found := magnitude?_append magnitude small h
  cases negative with
  | true =>
    show (Line.magnitude? (magnitude.text ++ rest)).map _ = _
    rw [found]
    rfl
  | false =>
    rcases magnitude.exists_cons with ⟨c, cs, text, digit⟩
    have noMinus : c ≠ '-' := by
      rintro rfl
      exact absurd digit (by decide)
    show Line.number? (magnitude.text ++ rest) = _
    rw [text, List.cons_append] at found ⊢
    rw [Line.number?.eq_2 _ fun _ same => noMinus (List.cons.inj same).1, found]
    rfl

/-- Numbers are tried before words, and no word is taken for a number. -/
theorem number?_word (word : Word) (rest : List Char) :
    Line.number? (word.text ++ rest) = none := by
  rcases word with ⟨first, more, starts, continues⟩
  have noDigit : ¬ IsDigit first := not_isDigit_of_startsWord starts
  have noMinus : first ≠ '-' := by
    rintro rfl
    exact absurd starts (by decide)
  have noZero : first ≠ '0' := by
    rintro rfl
    exact absurd starts (by decide)
  have noMark : Line.hexadecimal? (first :: (more ++ rest)) = none := by
    unfold Line.hexadecimal?
    split
    next same => exact absurd (List.cons.inj same).1 noZero
    next same => exact absurd (List.cons.inj same).1 noZero
    next => rfl
  have noTaken : (first :: (more ++ rest)).takeWhile (Text.isDigitOf Base.decimal.radix) = [] :=
    takeWhile_of_begins (fun _ => isDigitOf_iff) (begins_cons noDigit)
  have noDigits : Line.digits? 10 (first :: (more ++ rest)) = none := by
    rw [Line.digits?]
    exact if_neg fun found => found.1 noTaken
  show Line.number? (first :: (more ++ rest)) = none
  rw [Line.number?.eq_2 _ fun _ same => noMinus (List.cons.inj same).1, Line.magnitude?, noMark,
    noDigits]
  rfl

theorem registerNumber?_text (word : Word) :
    Register.number? word.text =
      if word.IsRegister then some (min (denoted .decimal word.rest) (2 ^ 32 - 1)) else none := by
  rcases word with ⟨first, rest, starts, continues⟩
  have digits (areDigits : ∀ c ∈ rest, IsDigit c) :
      Text.digitsValue 10 rest = denoted .decimal rest :=
    digitsValue_eq .decimal areDigits
  have condition : (rest ≠ [] ∧ rest.all Char.isDigit = true) ↔
      (rest ≠ [] ∧ ∀ c ∈ rest, IsDigit c) := by
    simp only [List.all_eq_true, isDigit_iff]
  -- Both spellings of the letter are split off first, then what is left is asked to be digits.
  unfold Register.number?
  simp only [Word.text]
  split
  next same =>
    obtain ⟨rfl, rfl⟩ := List.cons.inj same
    by_cases h : rest ≠ [] ∧ ∀ c ∈ rest, IsDigit c
    · rw [if_pos (condition.mpr h), if_pos ⟨.inl rfl, h⟩, digits h.2]
      rfl
    · rw [if_neg (mt condition.mp h), if_neg fun register => h register.2]
  next same =>
    obtain ⟨rfl, rfl⟩ := List.cons.inj same
    by_cases h : rest ≠ [] ∧ ∀ c ∈ rest, IsDigit c
    · rw [if_pos (condition.mpr h), if_pos ⟨.inr rfl, h⟩, digits h.2]
      rfl
    · rw [if_neg (mt condition.mp h), if_neg fun register => h register.2]
  next small capital =>
    rw [if_neg]
    rintro ⟨rfl | rfl, -⟩
    · exact small rest rfl
    · exact capital rest rfl

theorem wordOperand_name (word : Word) : Line.wordOperand word.name = word.operand := by
  rw [Line.wordOperand, Word.name, String.toList_ofList, registerNumber?_text, Word.operand]
  by_cases h : word.IsRegister
  · rw [if_pos h, if_pos h]
  · rw [if_neg h, if_neg h]
    rfl

theorem operand?_append (operand : Operand) {rest : List Char}
    (h : Begins (¬ ContinuesWord ·) rest) :
    Line.operand? (operand.text ++ rest) = some (operand.operand, rest) := by
  cases operand with
  | number spelled =>
    rw [Operand.text, Line.operand?, number?_append spelled h]
    rfl
  | word spelled =>
    rw [Operand.text, Line.operand?, number?_word, word?_append spelled h]
    simp only [Option.map_some, wordOperand_name]
    rfl

/-! ## Lists of operands -/

/-- What may follow an operand, or the spaces behind it. -/
def FollowsOperand (c : Char) : Prop :=
  IsSpace c ∨ c = ',' ∨ c = ';' ∨ c = '#'

theorem not_continuesWord_of_followsOperand {c : Char} (h : FollowsOperand c) :
    ¬ ContinuesWord c := by
  rcases h with space | rfl | rfl | rfl
  · exact not_continuesWord_of_isSpace space
  · decide
  · decide
  · decide

theorem Operand.exists_cons (operand : Operand) :
    ∃ c cs, operand.text = c :: cs ∧ (StartsWord c ∨ IsDigit c ∨ c = '-') := by
  cases operand with
  | number spelled =>
    rcases spelled with ⟨negative, magnitude, small⟩
    cases negative with
    | true => exact ⟨'-', _, rfl, .inr (.inr rfl)⟩
    | false =>
      rcases magnitude.exists_cons with ⟨c, cs, text, digit⟩
      exact ⟨c, cs, text, .inr (.inl digit)⟩
  | word spelled => exact ⟨spelled.first, spelled.rest, rfl, .inl spelled.starts⟩

/-- No operand starts with a character that may follow one, nor with a colon. -/
theorem Operand.begins (operand : Operand) (rest : List Char) :
    Begins (fun c => ¬ FollowsOperand c ∧ c ≠ ':') (operand.text ++ rest) := by
  rcases operand.exists_cons with ⟨c, cs, text, starts⟩
  rw [text]
  refine begins_cons ⟨fun follows => ?_, ?_⟩
  · rcases starts with start | digit | rfl
    · exact not_continuesWord_of_followsOperand follows (.inl start)
    · exact not_continuesWord_of_followsOperand follows (.inr digit)
    · rcases follows with (h | h) | h | h | h <;> exact absurd h (by decide)
  · rintro rfl
    rcases starts with start | digit | minus
    · exact absurd start (by decide)
    · exact absurd digit (by decide)
    · exact absurd minus (by decide)

theorem Operand.begins_nonspace (operand : Operand) (rest : List Char) :
    Begins (¬ IsSpace ·) (operand.text ++ rest) :=
  (operand.begins rest).imp fun _ h space => h.1 (.inl space)

theorem comment_begins (comment : Option Comment) :
    Begins (fun c => c = ';' ∨ c = '#') (textOf Comment.text comment) := by
  cases comment with
  | none => exact begins_nil
  | some comment => exact begins_cons comment.isMark

theorem comment_begins_nonspace (comment : Option Comment) :
    Begins (¬ IsSpace ·) (textOf Comment.text comment) := by
  refine (comment_begins comment).imp fun c mark => ?_
  rcases mark with rfl | rfl <;> decide

/-- The end of a line: spaces, then perhaps a comment. -/
def ending (trail : Spaces) (comment : Option Comment) : List Char :=
  trail.text ++ textOf Comment.text comment

theorem ending_begins (trail : Spaces) (comment : Option Comment) :
    Begins FollowsOperand (ending trail comment) :=
  ((comment_begins comment).imp fun _ mark => .inr (.inr mark)).spaces_append trail
    fun _ space => .inl space

theorem skipSpaces_ending (trail : Spaces) (comment : Option Comment) :
    Line.skipSpaces (ending trail comment) = textOf Comment.text comment :=
  skipSpaces_append trail (comment_begins_nonspace comment)

theorem skipSpaces_eq_self {rest : List Char} (h : Begins (¬ IsSpace ·) rest) :
    Line.skipSpaces rest = rest :=
  skipSpaces_append ⟨[], fun _ member => absurd member (List.not_mem_nil)⟩ h

theorem skipSpaces_comment (comment : Option Comment) :
    Line.skipSpaces (textOf Comment.text comment) = textOf Comment.text comment :=
  skipSpaces_eq_self (comment_begins_nonspace comment)

theorem afterComma?_append (further : FurtherOperand) (rest : List Char) :
    Line.afterComma? (further.text ++ rest) = some (further.operand.text ++ rest) := by
  have comma : Line.skipSpaces (further.text ++ rest) =
      ',' :: (further.after.text ++ (further.operand.text ++ rest)) := by
    rw [FurtherOperand.text, List.append_assoc, List.cons_append, List.append_assoc]
    exact skipSpaces_append _ (begins_cons (by decide))
  rw [Line.afterComma?, comma]
  exact congrArg some (skipSpaces_append _ (further.operand.begins_nonspace rest))

theorem afterComma?_ending (trail : Spaces) (comment : Option Comment) :
    Line.afterComma? (ending trail comment) = none := by
  rw [Line.afterComma?, skipSpaces_ending]
  split
  next rest same =>
    have mark := comment_begins comment ',' (by rw [same]; rfl)
    exact absurd mark (by decide)
  next => rfl

theorem moreOperands_of_afterComma?_eq_none {cs : List Char} (h : Line.afterComma? cs = none) :
    Line.moreOperands cs = ([], cs) := by
  rw [Line.moreOperands]
  split
  next => rfl
  next start found => rw [h] at found; cases found

theorem moreOperands_cons {cs start rest : List Char} {operand : Minicomputer.Operand}
    (comma : Line.afterComma? cs = some start)
    (found : Line.operand? start = some (operand, rest)) :
    Line.moreOperands cs =
      (operand :: (Line.moreOperands rest).1, (Line.moreOperands rest).2) := by
  rw [Line.moreOperands]
  split
  next missing => rw [comma] at missing; cases missing
  next start' comma' =>
    rw [comma] at comma'
    cases comma'
    split
    next missing => rw [found] at missing; cases missing
    next operand' rest' found' =>
      rw [found] at found'
      cases found'
      rfl

theorem furtherOperands_begin (further : List FurtherOperand) (trail : Spaces)
    (comment : Option Comment) :
    Begins FollowsOperand
      (further.flatMap FurtherOperand.text ++ ending trail comment) := by
  cases further with
  | nil => exact ending_begins trail comment
  | cons first more =>
    rw [List.flatMap_cons, List.append_assoc, FurtherOperand.text, List.append_assoc]
    exact (begins_cons (.inr (.inl rfl))).spaces_append first.before fun _ space => .inl space

theorem moreOperands_append (further : List FurtherOperand) (trail : Spaces)
    (comment : Option Comment) :
    Line.moreOperands (further.flatMap FurtherOperand.text ++ ending trail comment) =
      (further.map fun further => further.operand.operand, ending trail comment) := by
  -- The scanner goes on behind each operand, so it is followed along the list of operands.
  induction further with
  | nil => exact moreOperands_of_afterComma?_eq_none (afterComma?_ending trail comment)
  | cons first more ih =>
    have comma := afterComma?_append first
      (more.flatMap FurtherOperand.text ++ ending trail comment)
    have found := operand?_append first.operand
      ((furtherOperands_begin more trail comment).imp
        fun _ => not_continuesWord_of_followsOperand)
    rw [List.flatMap_cons, List.append_assoc, moreOperands_cons comma found, ih]
    rfl

theorem operands_append (operands : Operands) (trail : Spaces) (comment : Option Comment) :
    Line.operands (operands.text ++ ending trail comment) =
      (operands.operands, ending trail comment) := by
  have found := operand?_append operands.first
    ((furtherOperands_begin operands.further trail comment).imp
      fun _ => not_continuesWord_of_followsOperand)
  rw [Operands.text, List.append_assoc, Line.operands, found]
  simp only [moreOperands_append]
  rfl

theorem word?_comment (comment : Option Comment) :
    Line.word? (textOf Comment.text comment) = none := by
  cases comment with
  | none => rfl
  | some comment =>
    have outside : Line.isWordStart comment.mark = false := by
      rcases comment.isMark with mark | mark <;> rw [mark] <;> decide
    show Line.word? (comment.mark :: comment.body) = none
    rw [Line.word?, outside]
    rfl

theorem operands_comment (comment : Option Comment) :
    Line.operands (textOf Comment.text comment) = ([], textOf Comment.text comment) := by
  have noNumber : Line.number? (textOf Comment.text comment) = none := by
    cases comment with
    | none => rfl
    | some comment =>
      rcases comment with ⟨mark, rfl | rfl, body⟩ <;> rfl
  rw [Line.operands, Line.operand?, noNumber, word?_comment]
  rfl

/-! ## Statements and labels -/

theorem statement?_of_nonspace {cs rest : List Char} {mnemonic : String}
    (found : Line.word? cs = some (mnemonic, rest)) (h : Begins (¬ IsSpace ·) rest) :
    Line.statement? cs = some (⟨mnemonic, []⟩, rest) := by
  rw [Line.statement?, found]
  cases rest with
  | nil => rfl
  | cons c rest =>
    have nonspace : Line.isSpace c = false := by
      rw [Bool.eq_false_iff, ne_eq, isSpace_iff]
      exact h c rfl
    simp [nonspace]

theorem statement?_of_space {cs rest : List Char} {mnemonic : String} {c : Char}
    (found : Line.word? cs = some (mnemonic, c :: rest)) (space : IsSpace c) :
    Line.statement? cs =
      some (⟨mnemonic, (Line.operands (Line.skipSpaces rest)).1⟩,
        (Line.operands (Line.skipSpaces rest)).2) := by
  rw [Line.statement?, found]
  simp [isSpace_iff.mpr space]

/-- After spaces, of which there is one, the operands are read from the first other character. -/
theorem statement?_of_spaces {cs rest : List Char} {mnemonic : String} (spaces : Spaces)
    (some_space : spaces.text ≠ [])
    (found : Line.word? cs = some (mnemonic, spaces.text ++ rest))
    (h : Begins (¬ IsSpace ·) rest) :
    Line.statement? cs = some (⟨mnemonic, (Line.operands rest).1⟩, (Line.operands rest).2) := by
  rcases spaces with ⟨text, areSpaces⟩
  cases text with
  | nil => exact absurd rfl some_space
  | cons c more =>
    have skipped : Line.skipSpaces (more ++ rest) = rest :=
      skipSpaces_append ⟨more, fun d member => areSpaces d (List.mem_cons_of_mem c member)⟩ h
    have read : Line.statement? cs =
        some (⟨mnemonic, (Line.operands (Line.skipSpaces (more ++ rest))).1⟩,
          (Line.operands (Line.skipSpaces (more ++ rest))).2) :=
      statement?_of_space found (areSpaces c (List.mem_cons_self ..))
    rw [read, skipped]

def Spaces.append (first second : Spaces) : Spaces where
  text := first.text ++ second.text
  areSpaces := by
    intro c member
    rcases List.mem_append.mp member with inFirst | inSecond
    · exact first.areSpaces c inFirst
    · exact second.areSpaces c inSecond

/-- What the mnemonic is followed by cannot belong to it. -/
theorem arguments_begin (arguments : Option Arguments) (trail : Spaces)
    (comment : Option Comment) :
    Begins (¬ ContinuesWord ·) (textOf Arguments.text arguments ++ ending trail comment) := by
  cases arguments with
  | none =>
    exact (ending_begins trail comment).imp fun _ => not_continuesWord_of_followsOperand
  | some arguments =>
    rcases arguments with ⟨⟨text, areSpaces⟩, some_space, operands⟩
    cases text with
    | nil => exact absurd rfl some_space
    | cons c more =>
      exact begins_cons (not_continuesWord_of_isSpace (areSpaces c (List.mem_cons_self ..)))

theorem mnemonic_append (statement : Statement) (trail : Spaces) (comment : Option Comment) :
    Line.word? (statement.text ++ ending trail comment) =
      some (statement.mnemonic.name,
        textOf Arguments.text statement.arguments ++ ending trail comment) := by
  rw [Statement.text, List.append_assoc]
  exact word?_append _ (arguments_begin statement.arguments trail comment)

/-- A statement may leave the spaces before the comment to the line, but nothing else. -/
theorem statement?_append (statement : Statement) (trail : Spaces) (comment : Option Comment) :
    ∃ rest, Line.statement? (statement.text ++ ending trail comment) =
        some (statement.statement, rest) ∧
      Line.skipSpaces rest = textOf Comment.text comment := by
  have found := mnemonic_append statement trail comment
  have nothing := operands_comment comment
  have nonspace := comment_begins_nonspace comment
  rcases statement with ⟨mnemonic, arguments⟩
  cases arguments with
  | none =>
    -- Spaces behind a bare mnemonic are read with it, in search of operands.
    by_cases empty : trail.text = []
    · have bare : ending trail comment = textOf Comment.text comment := by
        rw [ending, empty]
        rfl
      refine ⟨_, statement?_of_nonspace found ?_, skipSpaces_ending trail comment⟩
      rw [bare]
      exact nonspace
    · have read := statement?_of_spaces trail empty found nonspace
      rw [nothing] at read
      exact ⟨_, read, skipSpaces_comment comment⟩
  | some arguments =>
    rcases arguments with ⟨gap, some_space, operands⟩
    cases operands with
    | none =>
      -- Nothing stands between the spaces of the statement and those of the line.
      have spaces : (gap.append trail).text ≠ [] := by simp [Spaces.append, some_space]
      have text : gap.text ++ [] ++ ending trail comment =
          (gap.append trail).text ++ textOf Comment.text comment := by
        rw [List.append_nil]
        exact (List.append_assoc ..).symm
      have read := statement?_of_spaces _ spaces (text ▸ found) nonspace
      rw [nothing] at read
      exact ⟨_, read, skipSpaces_comment comment⟩
    | some operands =>
      have text : gap.text ++ operands.text ++ ending trail comment =
          gap.text ++ (operands.text ++ ending trail comment) := List.append_assoc ..
      have begins : Begins (¬ IsSpace ·) (operands.text ++ ending trail comment) := by
        rw [Operands.text, List.append_assoc]
        exact operands.first.begins_nonspace _
      have read := statement?_of_spaces gap some_space (text ▸ found) begins
      rw [operands_append] at read
      exact ⟨_, read, skipSpaces_ending trail comment⟩

theorem label?_append (label : Label) (rest : List Char) :
    Line.label? (label.text ++ rest) = some (label.word.name, rest) := by
  have colon : Begins (¬ ContinuesWord ·) (label.gap.text ++ ':' :: rest) :=
    Begins.spaces_append (begins_cons (by decide)) label.gap
      fun _ => not_continuesWord_of_isSpace
  have skipped : Line.skipSpaces (label.gap.text ++ ':' :: rest) = ':' :: rest :=
    skipSpaces_append label.gap (begins_cons (by decide))
  have text : label.text ++ rest = label.word.text ++ (label.gap.text ++ ':' :: rest) := by
    simp [Label.text]
  rw [Line.label?, text, word?_append label.word colon]
  simp only [skipped]

theorem label?_eq_none_of_begins {cs rest : List Char} {name : String}
    (found : Line.word? cs = some (name, rest)) (h : Begins (· ≠ ':') (Line.skipSpaces rest)) :
    Line.label? cs = none := by
  rw [Line.label?, found]
  dsimp only
  split
  next rest' same => exact absurd rfl (h ':' (by rw [same]; rfl))
  next => rfl

theorem label?_comment (comment : Option Comment) :
    Line.label? (textOf Comment.text comment) = none := by
  rw [Line.label?, word?_comment]

theorem comment_begins_nocolon (comment : Option Comment) :
    Begins (· ≠ ':') (textOf Comment.text comment) := by
  refine (comment_begins comment).imp fun c mark => ?_
  rcases mark with rfl | rfl <;> decide

/-- A mnemonic is not taken for a label. -/
theorem label?_statement (statement : Statement) (trail : Spaces) (comment : Option Comment) :
    Line.label? (statement.text ++ ending trail comment) = none := by
  refine label?_eq_none_of_begins (mnemonic_append statement trail comment) ?_
  rcases statement with ⟨mnemonic, arguments⟩
  rcases arguments with _ | ⟨gap, some_space, operands⟩
  · rw [textOf, List.nil_append, skipSpaces_ending]
    exact comment_begins_nocolon comment
  rcases operands with _ | operands
  · have skipped : Line.skipSpaces (gap.text ++ [] ++ ending trail comment) =
        textOf Comment.text comment := by
      rw [List.append_nil, ending, ← List.append_assoc]
      exact skipSpaces_append (gap.append trail) (comment_begins_nonspace comment)
    show Begins _ (Line.skipSpaces (gap.text ++ [] ++ ending trail comment))
    rw [skipped]
    exact comment_begins_nocolon comment
  · have begins := operands.first.begins
      (operands.further.flatMap FurtherOperand.text ++ ending trail comment)
    rw [← List.append_assoc] at begins
    have skipped : Line.skipSpaces (gap.text ++ operands.text ++ ending trail comment) =
        operands.text ++ ending trail comment := by
      rw [List.append_assoc]
      exact skipSpaces_append gap (begins.imp fun _ h space => h.1 (.inl space))
    show Begins _ (Line.skipSpaces (gap.text ++ operands.text ++ ending trail comment))
    rw [skipped]
    exact begins.imp fun _ h => h.2

/-! ## Lines -/

/-- What is left of a line behind its label, from the first character that is not a space. -/
def afterLabel (line : Line) : List Char :=
  match line.statement with
  | none => textOf Comment.text line.comment
  | some statement => statement.text ++ ending line.trail line.comment

theorem afterLabel_begins (line : Line) : Begins (¬ IsSpace ·) (afterLabel line) := by
  rcases line with ⟨lead, label, gap, statement, trail, comment⟩
  cases statement with
  | none => exact comment_begins_nonspace comment
  | some statement =>
    exact begins_cons fun space => not_continuesWord_of_isSpace space
      (.inl statement.mnemonic.starts)

theorem skipSpaces_body (spaces : Spaces) (line : Line) :
    Line.skipSpaces (spaces.text ++
      (textOf Statement.text line.statement ++ ending line.trail line.comment)) =
        afterLabel line := by
  have begins := afterLabel_begins line
  rcases line with ⟨lead, label, gap, statement, trail, comment⟩
  cases statement with
  | none =>
    -- Without a statement the spaces before and behind its place are one run of spaces.
    show Line.skipSpaces (spaces.text ++ (trail.text ++ textOf Comment.text comment)) = _
    rw [← List.append_assoc]
    exact skipSpaces_append (spaces.append trail) begins
  | some statement => exact skipSpaces_append spaces begins

/-- A label is read where the line has one, and nothing but spaces is lost behind it. -/
theorem optional_label (line : Line) :
    ∃ rest, Line.optional Line.label? (Line.skipSpaces line.text) = (line.line.label, rest) ∧
      Line.skipSpaces rest = afterLabel line := by
  have body := skipSpaces_body line.gap line
  cases labelled : line.label with
  | none =>
    -- Without a label the spaces around its place are one run of spaces.
    have text : line.text = (line.lead.append line.gap).text ++
        (textOf Statement.text line.statement ++ ending line.trail line.comment) := by
      simp [Line.text, Spaces.append, ending, labelled, textOf]
    have noLabel : Line.label? (afterLabel line) = none := by
      rcases line with ⟨lead, label, gap, statement, trail, comment⟩
      cases statement with
      | none => exact label?_comment comment
      | some statement => exact label?_statement statement trail comment
    refine ⟨afterLabel line, ?_, skipSpaces_eq_self (afterLabel_begins line)⟩
    rw [text, skipSpaces_body, Line.optional, noLabel, Line.line, labelled]
    rfl
  | some label =>
    have text : line.text = line.lead.text ++ (label.text ++ (line.gap.text ++
        (textOf Statement.text line.statement ++ ending line.trail line.comment))) := by
      rw [Line.text, labelled]
      rfl
    have nonspace : Begins (¬ IsSpace ·) (label.text ++ (line.gap.text ++
        (textOf Statement.text line.statement ++ ending line.trail line.comment))) :=
      begins_cons fun space => not_continuesWord_of_isSpace space (.inl label.word.starts)
    refine ⟨_, ?_, body⟩
    rw [text, skipSpaces_append line.lead nonspace, Line.optional, label?_append, Line.line,
      labelled]
    rfl

theorem optional_statement (line : Line) :
    ∃ rest, Line.optional Line.statement? (afterLabel line) = (line.line.statement, rest) ∧
      Line.skipSpaces rest = textOf Comment.text line.comment := by
  rcases line with ⟨lead, label, gap, statement, trail, comment⟩
  cases statement with
  | none =>
    have nothing : Line.statement? (textOf Comment.text comment) = none := by
      rw [Line.statement?, word?_comment]
    refine ⟨textOf Comment.text comment, ?_, skipSpaces_comment comment⟩
    show Line.optional Line.statement? (textOf Comment.text comment) = _
    rw [Line.optional, nothing]
    rfl
  | some statement =>
    rcases statement?_append statement trail comment with ⟨rest, read, skipped⟩
    refine ⟨rest, ?_, skipped⟩
    show Line.optional Line.statement? (statement.text ++ ending trail comment) = _
    rw [Line.optional, read]
    rfl

theorem skipComment_comment (comment : Option Comment) :
    Line.skipComment (textOf Comment.text comment) = [] := by
  rcases comment with _ | ⟨mark, rfl | rfl, body⟩ <;> rfl

/-- A line of the grammar is read, and as what its tree says. -/
theorem parse_text (line : Line) : Line.parse line.text = .ok line.line := by
  rcases optional_label line with ⟨rest, labelled, skipped⟩
  rcases optional_statement line with ⟨rest', stated, skipped'⟩
  have scanned : Line.scan line.text = (line.line, []) := by
    simp only [Line.scan, labelled, skipped, stated, skipped', skipComment_comment]
  rw [Line.parse, scanned]

end Grammar
end Minicomputer
