/-
# `TextGrammar.Cli.Table` — tables in a frame

A table has a title in the middle above it, a head in heavy lines and
rows in light ones.  A column is as wide as its widest cell, with a blank
at each side; a line end in a cell makes its row higher.
-/
import TextGrammar.Text.Width

namespace TextGrammar.Cli.Table

/-- A text with blanks behind it up to a width. -/
def pad (width : Nat) (t : Text) : Text := t ++ List.replicate (width - Text.width t) ' '

/-- A text in the middle of a width; of an odd number of blanks one more
stands behind it. -/
def centre (width : Nat) (t : Text) : Text :=
  let blanks := width - Text.width t
  List.replicate (blanks / 2) ' ' ++ t ++ List.replicate (blanks - blanks / 2) ' '

/-- The controls that leave no trace in a cell: bell, backspace, vertical
tab, form feed and carriage return. -/
def isTraceless (c : Char) : Bool :=
  c == '\x07' || c == '\x08' || c == '\x0b' || c == '\x0c' || c == '\r'

/-- The lines of a cell. -/
def cellLines (t : Text) : List Text := Text.fields '\n' (t.filter (!isTraceless ·))

/-- The width of a cell. -/
def cellWidth (t : Text) : Nat := ((cellLines t).map Text.width).foldl max 0

/-- The width of each column of rows that all have as many cells. -/
def columnWidths (rows : List (List Text)) : List Nat :=
  match rows with
  | [] => []
  | row :: rest =>
    rest.foldl (fun ws r => List.zipWith max ws (r.map cellWidth)) (row.map cellWidth)

/-- A horizontal line with its ends, and with a joint between columns. -/
def rule (left line joint right : Char) (widths : List Nat) : Text :=
  left :: Text.join [joint] (widths.map fun w => List.replicate (w + 2) line) ++ [right]

/-- One line of a row between vertical lines. -/
def rowLine (edge : Char) (widths : List Nat) (cells : List Text) : Text :=
  let padded := List.zipWith (fun w c => ' ' :: pad w c ++ [' ']) widths cells
  edge :: Text.join [edge] padded ++ [edge]

/-- A row as lines; cells with fewer lines are filled up below. -/
def rowLines (edge : Char) (widths : List Nat) (cells : List Text) : List Text :=
  let parts := cells.map cellLines
  let height := (parts.map List.length).foldl max 1
  (List.range height).map fun i => rowLine edge widths (parts.map fun ls => ls.getD i [])

/-- The lines of a table with a title and a head. -/
def lines (title : Text) (head : List Text) (rows : List (List Text)) : List Text :=
  let widths := columnWidths (head :: rows)
  let total := widths.foldl (fun total width => total + width + 3) 1
  [centre total title, rule '┏' '━' '┳' '┓' widths] ++ rowLines '┃' widths head
    ++ [rule '┡' '━' '╇' '┩' widths] ++ rows.flatMap (rowLines '│' widths)
    ++ [rule '└' '─' '┴' '┘' widths]

end TextGrammar.Cli.Table
