import Admission.Text.Width

/-!
# Tables in columns

A table has a header and rows, each with the same number of cells. Every column is as wide as its
widest cell, the header included. A cell is one space, its content, spaces up to the width of the
column, and one space more; cells of a row are separated by another space, so that three spaces
stand between the contents of neighbouring columns.
-/

set_option autoImplicit false

namespace Admission.Text

/-- The widths of the cells of a row. -/
def rowWidths (row : List String) : List Nat := row.map fun cell => displayWidth cell.toList

/-- The widths of the columns of a table, each the widest of its cells. -/
def columnWidths (header : List String) (rows : List (List String)) : List Nat :=
  rows.foldl (fun widths row => List.zipWith max widths (rowWidths row)) (rowWidths header)

/-- A cell in a column: its content between spaces, as wide as the column asks. -/
def paddedCell (width : Nat) (cell : String) : List Char :=
  ' ' :: (cell.toList ++ List.replicate (width - displayWidth cell.toList) ' ' ++ [' '])

/-- A row of a table with columns of given widths. -/
def writeRow (widths : List Nat) (row : List String) : List Char :=
  List.intercalate [' '] (List.zipWith paddedCell widths row)

/-- The lines of a table, the header first. -/
def tableLines (header : List String) (rows : List (List String)) : List (List Char) :=
  let widths := columnWidths header rows
  (header :: rows).map (writeRow widths)

end Admission.Text
