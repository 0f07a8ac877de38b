/-!
# Control sequences

Some characters are not shown by a terminal but obeyed: control characters, and the sequences that
begin with the escape character.  Text that somebody has typed may hold them, and a message that
quotes such text as it is would move the cursor or change the colours.

A sequence is read character by character.  What follows the escape character says of which kind
the sequence is and so how it ends: after one character, with the first character of a certain
range, or only where a string of any length is closed.  A new escape character begins a new
sequence wherever it stands, and cancel and substitute end every sequence.

* `Text.withoutControls s` -- what is shown of `s`.
-/

namespace Minicomputer
namespace Text

/-! ## Characters -/

/-- White space that moves to another place in the text: tab, line feed, form feed and carriage
return. -/
def isLayout (c : Char) : Bool :=
  c == '\t' || c == '\n' || c == '\x0c' || c == '\r'

/-- Whether a character is shown outside a sequence.  Of the control characters of ASCII only those
that lay out the text are, and every other character is. -/
def isShown (c : Char) : Bool :=
  (' ' ≤ c && c != '\x7f') || isLayout c

def isBetween (first last c : Char) : Bool :=
  first ≤ c && c ≤ last

/-! ## Sequences -/

/-- How much of a sequence has been read. -/
inductive ControlSequence where
  /-- The escape character. -/
  | escape
  /-- Something like the choice of a character set, behind a character from space to slash. -/
  | designation
  /-- The parameters of a command, behind a bracket. -/
  | parameters
  /-- The head of a string for a device, behind a `P`, of which nothing has been read yet. -/
  | deviceHead
  /-- The parameters in the head of a string for a device. -/
  | deviceParameters
  /-- What stands behind the parameters in the head of a string for a device. -/
  | deviceDesignation
  /-- The string for a device behind its head, or a string for some program. -/
  | data
  /-- A string for the terminal itself, such as a title, behind a closing bracket. -/
  | title
  deriving DecidableEq, Repr

/-- Where a terminal is when it has read a part of a text. -/
inductive Position where
  | outside
  | inside (sequence : ControlSequence)
  /-- White space has been read in the middle of a sequence.  What follows it is shown, but the
  sequence has not come to its end: after a control character it goes on. -/
  | interrupted (sequence : ControlSequence)
  deriving DecidableEq, Repr

namespace ControlSequence

/-- Whether white space is shown in the middle of the sequence.  In a string it belongs to the
string. -/
def showsLayout : ControlSequence → Bool
  | escape | designation | parameters => true
  | deviceHead | deviceParameters | deviceDesignation | data | title => false

/-- Where a terminal is behind a character of the sequence.  A character that does not fit into the
sequence is dropped and changes nothing. -/
def after : ControlSequence → Char → Position
  | escape, c =>
    if isBetween ' ' '/' c then .inside designation
    else if c = '[' then .inside parameters
    else if c = 'P' then .inside deviceHead
    else if c = ']' then .inside title
    else if c = 'X' ∨ c = '^' ∨ c = '_' then .inside data
    else if isBetween '0' '~' c then .outside
    else .inside escape
  | designation, c => if isBetween '0' '~' c then .outside else .inside designation
  | parameters, c => if isBetween '@' '~' c then .outside else .inside parameters
  | deviceHead, c =>
    if isBetween ' ' '/' c then .inside deviceDesignation
    else if isBetween '0' '?' c then .inside deviceParameters
    else if isBetween '@' '~' c then .inside data
    else .inside deviceHead
  | deviceParameters, c =>
    if isBetween ' ' '/' c then .inside deviceDesignation
    else if isBetween '<' '~' c then .inside data
    else .inside deviceParameters
  | deviceDesignation, c => if isBetween '0' '~' c then .inside data else .inside deviceDesignation
  -- The byte 9C closes such a string even if it is only a part of a character.
  | data, c => if (String.utf8EncodeChar c).contains 0x9C then .outside else .inside data
  | title, c => if c = '\x07' then .outside else .inside title

end ControlSequence

/-! ## What is shown -/

/-- Reads a character: where the terminal is behind it, and whether it is shown. -/
def Position.read (position : Position) (c : Char) : Position × Bool :=
  if c = '\x1b' then (.inside .escape, false)
  else if c = '\x18' ∨ c = '\x1a' then (.outside, false)
  else match position with
    | outside => (.outside, isShown c)
    | inside sequence =>
      if sequence.showsLayout && isLayout c then (.interrupted sequence, true)
      else (sequence.after c, false)
    | interrupted sequence =>
      -- A character outside ASCII makes the terminal forget the sequence.
      if '\x7f' < c then (.outside, true)
      else if isShown c then (.interrupted sequence, true)
      else (.inside sequence, false)

def shownFrom (position : Position) : List Char → List Char
  | [] => []
  | c :: cs =>
    let (next, shown) := position.read c
    if shown then c :: shownFrom next cs else shownFrom next cs

/-- What is shown of a text. -/
def withoutControls (text : String) : String :=
  String.ofList (shownFrom .outside text.toList)

end Text
end Minicomputer
