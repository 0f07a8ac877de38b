import Mathlib.Data.Nat.Digits.Defs
import Minicomputer.Assembly.Line

/-!
# The grammar of a line

What a line of assembly may look like, said without saying how it is read:

```text
line      = SP* [ word SP* ':' ] SP* [ statement ] SP* [ (';' | '#') anything ]
statement = word [ SP+ [ operand (SP* ',' SP* operand)* ] ]
operand   = word | ['-'] digit+ | ['-'] ('0x' | '0X') hex+
word      = [A-Za-z_.] [A-Za-z0-9_.]*
```

`SP` is a space or a tab, and the magnitude of a number is at most `2 ^ 63 - 1`.  There is a type of
trees for every rule, and a tree carries the proofs that its characters are allowed where they
stand, so a tree of type `Grammar.Line` is a derivation.  `text` is the line that a tree derives,
and `line` is what that line says.

The scanners of `Minicomputer.Assembly.Line` are not used here, and neither are their classes of
characters.
-/

namespace Minicomputer
namespace Grammar

/-! ## Characters -/

def IsSpace (c : Char) : Prop :=
  c = ' ' ∨ c = '\t'

def IsLetter (c : Char) : Prop :=
  ('A' ≤ c ∧ c ≤ 'Z') ∨ ('a' ≤ c ∧ c ≤ 'z')

def IsDigit (c : Char) : Prop :=
  '0' ≤ c ∧ c ≤ '9'

def IsHexDigit (c : Char) : Prop :=
  IsDigit c ∨ ('A' ≤ c ∧ c ≤ 'F') ∨ ('a' ≤ c ∧ c ≤ 'f')

def StartsWord (c : Char) : Prop :=
  IsLetter c ∨ c = '_' ∨ c = '.'

def ContinuesWord (c : Char) : Prop :=
  StartsWord c ∨ IsDigit c

instance (c : Char) : Decidable (IsSpace c) :=
  inferInstanceAs (Decidable (_ ∨ _))

instance (c : Char) : Decidable (IsLetter c) :=
  inferInstanceAs (Decidable (_ ∨ _))

instance (c : Char) : Decidable (IsDigit c) :=
  inferInstanceAs (Decidable (_ ∧ _))

instance (c : Char) : Decidable (IsHexDigit c) :=
  inferInstanceAs (Decidable (_ ∨ _))

instance (c : Char) : Decidable (StartsWord c) :=
  inferInstanceAs (Decidable (_ ∨ _))

instance (c : Char) : Decidable (ContinuesWord c) :=
  inferInstanceAs (Decidable (_ ∨ _))

/-! ## Spaces and words -/

structure Spaces where
  text : List Char
  areSpaces : ∀ c ∈ text, IsSpace c

structure Word where
  first : Char
  rest : List Char
  starts : StartsWord first
  continues : ∀ c ∈ rest, ContinuesWord c

def Word.text (word : Word) : List Char :=
  word.first :: word.rest

def Word.name (word : Word) : String :=
  String.ofList word.text

/-! ## Numbers -/

inductive Base where
  | decimal
  | hexadecimal
  deriving DecidableEq, Repr

def Base.radix : Base → Nat
  | decimal => 10
  | hexadecimal => 16

def Base.IsDigit : Base → Char → Prop
  | decimal, c => Grammar.IsDigit c
  | hexadecimal, c => IsHexDigit c

instance : (base : Base) → (c : Char) → Decidable (base.IsDigit c)
  | .decimal, c => inferInstanceAs (Decidable (Grammar.IsDigit c))
  | .hexadecimal, c => inferInstanceAs (Decidable (IsHexDigit c))

/-- What a digit counts.  The letters follow the decimal digits in the order of the alphabet. -/
def digitValue (c : Char) : Nat :=
  if c ≤ '9' then c.toNat - '0'.toNat
  else if c ≤ 'F' then c.toNat - 'A'.toNat + 10
  else c.toNat - 'a'.toNat + 10

/-- The number that a row of digits denotes, the last digit being that of the ones. -/
def denoted (base : Base) (digits : List Char) : Nat :=
  Nat.ofDigits base.radix (digits.reverse.map digitValue)

structure Digits (base : Base) where
  text : List Char
  some_digit : text ≠ []
  areDigits : ∀ c ∈ text, base.IsDigit c

def Digits.value {base : Base} (digits : Digits base) : Nat :=
  denoted base digits.text

inductive Magnitude where
  | decimal (digits : Digits .decimal)
  | hexadecimal (mark : Char) (isMark : mark = 'x' ∨ mark = 'X') (digits : Digits .hexadecimal)

namespace Magnitude

def text : Magnitude → List Char
  | decimal digits => digits.text
  | hexadecimal mark _ digits => '0' :: mark :: digits.text

def value : Magnitude → Nat
  | decimal digits => digits.value
  | hexadecimal _ _ digits => digits.value

end Magnitude

structure Number where
  negative : Bool
  magnitude : Magnitude
  small : magnitude.value ≤ 2 ^ 63 - 1

namespace Number

def text (number : Number) : List Char :=
  if number.negative then '-' :: number.magnitude.text else number.magnitude.text

def value (number : Number) : Int :=
  if number.negative then -(number.magnitude.value : Int) else number.magnitude.value

end Number

/-! ## Operands -/

/-- Register syntax: `r` or `R`, then decimal digits and nothing else. -/
def Word.IsRegister (word : Word) : Prop :=
  (word.first = 'r' ∨ word.first = 'R') ∧ word.rest ≠ [] ∧ ∀ c ∈ word.rest, Grammar.IsDigit c

instance (word : Word) : Decidable word.IsRegister :=
  have := List.decidableBAll Grammar.IsDigit word.rest
  inferInstanceAs (Decidable (_ ∧ _ ∧ _))

/-- What a word says as an operand. -/
def Word.operand (word : Word) : Minicomputer.Operand :=
  if word.IsRegister then .register (min (denoted .decimal word.rest) (2 ^ 32 - 1))
  else .label word.name

inductive Operand where
  | number (number : Number)
  | word (word : Word)

namespace Operand

def text : Operand → List Char
  | .number spelled => spelled.text
  | .word spelled => spelled.text

def operand : Operand → Minicomputer.Operand
  | .number spelled => .number spelled.value
  | .word spelled => spelled.operand

end Operand

/-- An operand that is not the first, with the comma before it. -/
structure FurtherOperand where
  before : Spaces
  after : Spaces
  operand : Operand

def FurtherOperand.text (further : FurtherOperand) : List Char :=
  further.before.text ++ ',' :: (further.after.text ++ further.operand.text)

structure Operands where
  first : Operand
  further : List FurtherOperand

namespace Operands

def text (operands : Operands) : List Char :=
  operands.first.text ++ operands.further.flatMap FurtherOperand.text

def operands (operands : Operands) : List Minicomputer.Operand :=
  operands.first.operand :: operands.further.map fun further => further.operand.operand

end Operands

/-! ## Lines -/

/-- The text of an optional part. -/
def textOf {α : Type} (text : α → List Char) : Option α → List Char
  | none => []
  | some part => text part

/-- What follows a mnemonic: at least one space, then perhaps operands. -/
structure Arguments where
  gap : Spaces
  some_space : gap.text ≠ []
  operands : Option Operands

namespace Arguments

def text (arguments : Arguments) : List Char :=
  arguments.gap.text ++ textOf Operands.text arguments.operands

def operandList (arguments : Arguments) : List Minicomputer.Operand :=
  arguments.operands.elim [] Operands.operands

end Arguments

structure Statement where
  mnemonic : Word
  arguments : Option Arguments

namespace Statement

def text (statement : Statement) : List Char :=
  statement.mnemonic.text ++ textOf Arguments.text statement.arguments

def statement (statement : Statement) : Minicomputer.Statement where
  mnemonic := statement.mnemonic.name
  operands := statement.arguments.elim [] Arguments.operandList

end Statement

structure Label where
  word : Word
  gap : Spaces

def Label.text (label : Label) : List Char :=
  label.word.text ++ (label.gap.text ++ [':'])

structure Comment where
  mark : Char
  isMark : mark = ';' ∨ mark = '#'
  body : List Char

def Comment.text (comment : Comment) : List Char :=
  comment.mark :: comment.body

structure Line where
  lead : Spaces
  label : Option Label
  gap : Spaces
  statement : Option Statement
  trail : Spaces
  comment : Option Comment

namespace Line

def text (line : Line) : List Char :=
  line.lead.text ++ (textOf Label.text line.label ++ (line.gap.text ++
    (textOf Statement.text line.statement ++ (line.trail.text ++
      textOf Comment.text line.comment))))

/-- What a line of that form says. -/
def line (line : Line) : Minicomputer.Line where
  label := line.label.map fun label => label.word.name
  statement := line.statement.map Statement.statement

end Line
end Grammar
end Minicomputer
