/-!
# Lines

How a text falls into lines.  Both readers of the machine need it: the assembler reads characters
and drops the ending of a line, the console reads bytes and keeps what it gets.

* `Text.pieces mark xs` -- `xs` cut at every `mark`, one piece more than there are marks;
* `Text.linesAt mark xs` -- the same, but nothing after the last mark is no line;
* `Text.lines cs` -- the lines of a character text, where a carriage return right before the line
  feed belongs to the ending.
-/

namespace Minicomputer
namespace Text

variable {α : Type} [DecidableEq α]

/-- Everything between the marks, in order; the marks themselves are gone. -/
def pieces (mark : α) (xs : List α) : List (List α) :=
  xs.foldr
    (fun x acc =>
      if x = mark then [] :: acc
      else match acc with
        | [] => [[x]]
        | piece :: rest => (x :: piece) :: rest)
    [[]]

/-- A mark ends a line.  What follows the last mark is a line of its own unless it is empty. -/
def linesAt (mark : α) (xs : List α) : List (List α) :=
  let cut := pieces mark xs
  match cut.getLast? with
  | some [] => cut.dropLast
  | _ => cut

/-- A line that was ended by a line feed, without the one carriage return that may precede it. -/
def dropReturn (line : List Char) : List Char :=
  match line.getLast? with
  | some '\r' => line.dropLast
  | _ => line

/-- The lines of a text.  Only a line that is ended by a line feed loses a carriage return, so a
return at the very end of the text stays. -/
def lines (text : List Char) : List (List Char) :=
  let cut := pieces '\n' text
  let ended := cut.dropLast.map dropReturn
  match cut.getLast? with
  | some (c :: rest) => ended ++ [c :: rest]
  | _ => ended

end Text
end Minicomputer
