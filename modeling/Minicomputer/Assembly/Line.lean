import Minicomputer.Register

/-!
# Lines of assembly

One line of an assembly text, every part optional:

```text
label:  MNEMONIC operand, operand, operand   ; comment
```

A word is made of letters, digits, `_` and `.`, and does not start with a digit.  An operand is a
register, a decimal number, a hexadecimal number after `0x`, or a label; a comment starts with `;`
or `#`.  Parts may be separated by spaces and tabs.

Reading is greedy, and what turns out not to fit is left where it is: `Line.scan` takes as much of
a line as it understands and returns the rest, and `Line.parse` accepts a line of which nothing is
left.  A scanner of this module returns `none` when its part does not start here, and otherwise the
part together with the characters after it.

* A hexadecimal number that is too large is read as the `0` before its `x`.
* A comma counts only if an operand follows it.

Whether there is such a mnemonic, and whether its operands suit it, is left to the assembler.
-/

namespace Minicomputer

/-! ## What a line says -/

/-- An operand as it is written.  The number of a register is not checked. -/
inductive Operand where
  | register (number : Nat)
  | number (value : Int)
  | label (name : String)
  deriving DecidableEq, Repr

structure Statement where
  mnemonic : String
  operands : List Operand
  deriving DecidableEq, Repr

/-- A line, without its comment. -/
structure Line where
  label : Option String
  statement : Option Statement
  deriving DecidableEq, Repr

namespace Line

/-! ## Characters -/

def isSpace (c : Char) : Bool :=
  c == ' ' || c == '\t'

def isWordStart (c : Char) : Bool :=
  c.isAlpha || c == '_' || c == '.'

def isWordRest (c : Char) : Bool :=
  c.isAlphanum || c == '_' || c == '.'

def skipSpaces (cs : List Char) : List Char :=
  cs.dropWhile isSpace

/-! ## Parts -/

/-- A word, up to the first character that cannot be part of it. -/
def word? : List Char → Option (String × List Char)
  | [] => none
  | c :: cs =>
    if isWordStart c then
      some (String.ofList (c :: cs.takeWhile isWordRest), cs.dropWhile isWordRest)
    else none

/-- The largest number that is read, whatever its base. -/
def maxMagnitude : Nat := 0x7FFFFFFFFFFFFFFF

/-- The number of all the digits that come first, unless there are none or it is too large. -/
def digits? (radix : Nat) (cs : List Char) : Option (Nat × List Char) :=
  let digits := cs.takeWhile (Text.isDigitOf radix)
  if digits ≠ [] ∧ Text.digitsValue radix digits ≤ maxMagnitude then
    some (Text.digitsValue radix digits, cs.dropWhile (Text.isDigitOf radix))
  else none

def hexadecimal? : List Char → Option (Nat × List Char)
  | '0' :: 'x' :: cs | '0' :: 'X' :: cs => digits? 16 cs
  | _ => none

/-- A number without its sign: hexadecimal if it can be, and else decimal. -/
def magnitude? (cs : List Char) : Option (Nat × List Char) :=
  match hexadecimal? cs with
  | some found => some found
  | none => digits? 10 cs

/-- A number, perhaps after a minus sign. -/
def number? : List Char → Option (Int × List Char)
  | '-' :: cs => (magnitude? cs).map fun (magnitude, rest) => (-(magnitude : Int), rest)
  | cs => (magnitude? cs).map fun (magnitude, rest) => ((magnitude : Int), rest)

/-- The operand that a word is: a register if it can be, and else a label. -/
def wordOperand (word : String) : Operand :=
  match Register.number? word.toList with
  | some number => .register number
  | none => .label word

def operand? (cs : List Char) : Option (Operand × List Char) :=
  match number? cs with
  | some (value, rest) => some (.number value, rest)
  | none => (word? cs).map fun (word, rest) => (wordOperand word, rest)

def afterComma? (cs : List Char) : Option (List Char) :=
  match skipSpaces cs with
  | ',' :: rest => some (skipSpaces rest)
  | _ => none

/-! ## Every part takes something -/

theorem length_skipSpaces_le (cs : List Char) : (skipSpaces cs).length ≤ cs.length :=
  (List.dropWhile_suffix isSpace).length_le

theorem word?_length {cs rest : List Char} {word : String} (h : word? cs = some (word, rest)) :
    rest.length < cs.length := by
  cases cs with
  | nil => simp [word?] at h
  | cons c cs =>
    simp only [word?] at h
    split at h
    · have shorter := (List.dropWhile_suffix isWordRest (l := cs)).length_le
      simp only [Option.some.injEq, Prod.mk.injEq] at h
      rw [← h.2, List.length_cons]
      omega
    · cases h

theorem digits?_length {radix value : Nat} {cs rest : List Char}
    (h : digits? radix cs = some (value, rest)) : rest.length < cs.length := by
  simp only [digits?] at h
  split at h
  next found =>
    simp only [Option.some.injEq, Prod.mk.injEq] at h
    have whole := congrArg List.length
      (List.takeWhile_append_dropWhile (p := Text.isDigitOf radix) (l := cs))
    have some_digit := List.length_pos_iff.mpr found.1
    rw [List.length_append] at whole
    rw [← h.2]
    omega
  next => cases h

theorem hexadecimal?_length {value : Nat} {cs rest : List Char}
    (h : hexadecimal? cs = some (value, rest)) : rest.length < cs.length := by
  unfold hexadecimal? at h
  split at h
  · have := digits?_length h
    simp only [List.length_cons]
    omega
  · have := digits?_length h
    simp only [List.length_cons]
    omega
  · cases h

theorem magnitude?_length {value : Nat} {cs rest : List Char}
    (h : magnitude? cs = some (value, rest)) : rest.length < cs.length := by
  simp only [magnitude?] at h
  split at h
  next found =>
    cases h
    exact hexadecimal?_length found
  next => exact digits?_length h

theorem number?_length {value : Int} {cs rest : List Char}
    (h : number? cs = some (value, rest)) : rest.length < cs.length := by
  unfold number? at h
  split at h
  · obtain ⟨⟨magnitude, rest'⟩, found, same⟩ := Option.map_eq_some_iff.mp h
    cases same
    have := magnitude?_length found
    rw [List.length_cons]
    omega
  · obtain ⟨⟨magnitude, rest'⟩, found, same⟩ := Option.map_eq_some_iff.mp h
    cases same
    exact magnitude?_length found

theorem operand?_length {operand : Operand} {cs rest : List Char}
    (h : operand? cs = some (operand, rest)) : rest.length < cs.length := by
  simp only [operand?] at h
  split at h
  next found =>
    cases h
    exact number?_length found
  next =>
    obtain ⟨⟨word, rest'⟩, found, same⟩ := Option.map_eq_some_iff.mp h
    cases same
    exact word?_length found

theorem afterComma?_length {cs rest : List Char} (h : afterComma? cs = some rest) :
    rest.length < cs.length := by
  simp only [afterComma?] at h
  split at h
  next rest' found =>
    cases h
    have whole := length_skipSpaces_le cs
    have inner := length_skipSpaces_le rest'
    rw [found, List.length_cons] at whole
    omega
  next => cases h

/-! ## Lists of operands -/

def moreOperands (cs : List Char) : List Operand × List Char :=
  match _comma : afterComma? cs with
  | none => ([], cs)
  | some start =>
    match _found : operand? start with
    | none => ([], cs)
    | some (operand, rest) =>
      let (operands, rest) := moreOperands rest
      (operand :: operands, rest)
termination_by cs.length
decreasing_by
  have := afterComma?_length _comma
  have := operand?_length _found
  omega

/-- Operands with commas between them; there may be none. -/
def operands (cs : List Char) : List Operand × List Char :=
  match operand? cs with
  | none => ([], cs)
  | some (operand, rest) =>
    let (operands, rest) := moreOperands rest
    (operand :: operands, rest)

/-! ## Lines -/

def label? (cs : List Char) : Option (String × List Char) :=
  match word? cs with
  | none => none
  | some (name, rest) =>
    match skipSpaces rest with
    | ':' :: rest => some (name, rest)
    | _ => none

def statement? (cs : List Char) : Option (Statement × List Char) :=
  match word? cs with
  | none => none
  | some (mnemonic, []) => some (⟨mnemonic, []⟩, [])
  | some (mnemonic, c :: rest) =>
    if isSpace c then
      let (operands, rest) := operands (skipSpaces rest)
      some (⟨mnemonic, operands⟩, rest)
    else some (⟨mnemonic, []⟩, c :: rest)

/-- Nothing, if a comment starts here. -/
def skipComment : List Char → List Char
  | ';' :: _ | '#' :: _ => []
  | cs => cs

/-- An optional part: what it is, and the characters after it. -/
def optional {α : Type} (part? : List Char → Option (α × List Char)) (cs : List Char) :
    Option α × List Char :=
  match part? cs with
  | some (part, rest) => (some part, rest)
  | none => (none, cs)

/-- As much of a line as can be understood, and the characters after it. -/
def scan (cs : List Char) : Line × List Char :=
  let (label, rest) := optional label? (skipSpaces cs)
  let (statement, rest) := optional statement? (skipSpaces rest)
  (⟨label, statement⟩, skipComment (skipSpaces rest))

/-- A whole line, or the characters at which it cannot be understood any more. -/
def parse (cs : List Char) : Except (List Char) Line :=
  match scan cs with
  | (line, []) => .ok line
  | (_, rest) => .error rest

end Line
end Minicomputer
