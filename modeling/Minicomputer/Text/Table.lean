import Minicomputer.Text.Lines

/-!
# Tables

Rows of cells laid out in columns, as everything the machine prints in tabular form is:

```text
  Address │ +0   │ +1
 ─────────┼──────┼────
   0x0010 │ beef │
 ─────────┴──────┴────
```

A column is as wide as the widest line of any of its cells, counted in characters, and every cell
is filled up to that width with a blank on either side.  A cell may have several lines; its row is
then as high as its highest cell.  A row with fewer cells than there are columns is continued with
empty cells.

Terminal columns are not counted: a character that takes two of them, or none, counts as one.
-/

namespace Minicomputer
namespace Text

inductive Align where
  | left
  | right
  deriving DecidableEq, Repr

/-- A cell: its lines, from top to bottom, and where they stand. -/
structure Cell where
  align : Align
  lines : List (List Char)
  deriving DecidableEq, Repr

namespace Cell

def left (text : String) : Cell :=
  ⟨.left, Text.lines text.toList⟩

def right (text : String) : Cell :=
  ⟨.right, Text.lines text.toList⟩

/-- What continues a short row. -/
def empty : Cell :=
  ⟨.left, []⟩

def width (cell : Cell) : Nat :=
  cell.lines.foldl (fun widest line => max widest line.length) 0

/-- Line `k` of the cell, filled up to `columns` characters.  Below its last line a cell is
blank. -/
def fill (cell : Cell) (columns k : Nat) : List Char :=
  let line := cell.lines[k]?.getD []
  match cell.align with
  | .left => line.rightpad columns ' '
  | .right => line.leftpad columns ' '

end Cell

/-- A table: perhaps a row of titles, then the rows. -/
structure Table where
  titles : Option (List Cell)
  rows : List (List Cell)
  deriving DecidableEq, Repr

namespace Table

/-- The rows together with the titles, which count for the widths like any other row. -/
def allRows (table : Table) : List (List Cell) :=
  table.titles.toList ++ table.rows

/-- As many columns as the longest row has cells. -/
def columnCount (table : Table) : Nat :=
  table.allRows.foldl (fun count row => max count row.length) 0

def columnWidth (table : Table) (j : Nat) : Nat :=
  table.allRows.foldl (fun widest row => max widest (row[j]?.getD .empty).width) 0

def columnWidths (table : Table) : List Nat :=
  (List.range table.columnCount).map table.columnWidth

/-! ## Layout -/

/-- The lines that a row takes: those of its highest cell, and one if it has none. -/
def rowHeight (row : List Cell) : Nat :=
  row.foldl (fun height cell => max height cell.lines.length) 1

/-- Puts the parts of a line between blanks, with `mark` between two parts. -/
def frame (mark : Char) (parts : List (List Char)) : List Char :=
  ' ' :: (parts.intersperse [mark]).flatten ++ [' ', '\n']

def rowLine (widths : List Nat) (row : List Cell) (k : Nat) : List Char :=
  frame '│' (widths.zipIdx.map fun (columns, j) =>
    ' ' :: (row[j]?.getD .empty).fill columns k ++ [' '])

def rowLines (widths : List Nat) (row : List Cell) : List Char :=
  ((List.range (rowHeight row)).map (rowLine widths row)).flatten

/-- A rule across the table, with `junction` where columns meet. -/
def rule (widths : List Nat) (junction : Char) : List Char :=
  frame junction (widths.map fun columns => List.replicate (columns + 2) '─')

/-- The whole table: the titles over a rule, the rows, and a rule at the bottom. -/
def chars (table : Table) : List Char :=
  let widths := table.columnWidths
  let heading :=
    match table.titles with
    | some titles => rowLines widths titles ++ rule widths '┼'
    | none => []
  heading ++ (table.rows.map (rowLines widths)).flatten ++ rule widths '┴'

/-- The table as text.  Every line of it ends with a line feed. -/
def render (table : Table) : String :=
  String.ofList table.chars

end Table
end Text
end Minicomputer
