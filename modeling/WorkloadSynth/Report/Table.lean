import WorkloadSynth.Text.Width

/-!
Tables with round corners.

A table has a header and rows of cells, all of the same number.  A cell may have several lines; a
row is as high as its highest cell, and a column as wide as its widest line.  Lines stand at the
left with a blank on both sides.  Only a table with rows is closed by a line.
-/

set_option autoImplicit false

namespace WorkloadSynth

abbrev Cell := List String

structure Table where
  header : List String
  rows : List (List String)

namespace Table

def cutAtBreaks : List Char → List (List Char)
  | [] => [[]]
  | c :: rest =>
    match cutAtBreaks rest with
    | [] => [[c]]
    | first :: others => if c = '\n' then [] :: first :: others else (c :: first) :: others

def cell (text : String) : Cell := (cutAtBreaks text.toList).map String.ofList

def cellWidth (c : Cell) : Nat := c.foldl (fun n line => max n (Text.width line)) 0

def widths (t : Table) : List Nat :=
  t.rows.foldl (fun widths row => widths.zipWith (fun n s => max n (cellWidth (cell s))) row)
    (t.header.map fun s => cellWidth (cell s))

def padded (width : Nat) (line : String) : String :=
  " " ++ line ++ String.ofList (List.replicate (width - Text.width line) ' ') ++ " "

def rowLine (widths : List Nat) (row : List Cell) (index : Nat) : String :=
  let parts := widths.zipWith (fun n lines => padded n (lines[index]?.getD "")) row
  "│" ++ String.intercalate "│" parts ++ "│"

def rowLines (widths : List Nat) (row : List String) : List String :=
  let cells := row.map cell
  let height := cells.foldl (fun n c => max n c.length) 0
  (List.range height).map (rowLine widths cells)

def rule (first middle last : String) (widths : List Nat) : String :=
  let bar := fun (n : Nat) => String.ofList (List.replicate (n + 2) '─')
  first ++ String.intercalate middle (widths.map bar) ++ last

def lines (t : Table) : List String :=
  let widths := t.widths
  [rule "╭" "┬" "╮" widths] ++ rowLines widths t.header ++ [rule "├" "┼" "┤" widths] ++
    t.rows.flatMap (rowLines widths) ++
    (if t.rows.isEmpty then [] else [rule "╰" "┴" "╯" widths])

def text (t : Table) : String := String.intercalate "\n" t.lines

end Table

end WorkloadSynth
