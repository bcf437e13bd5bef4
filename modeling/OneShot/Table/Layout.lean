import OneShot.Text.Blank

/-!
# Tables as text

A table is a list of lines of cells.  Each column is as wide as its widest
cell, columns are three spaces apart, and blanks at the end of a line are
dropped.
-/

namespace OneShot.Table

def gap : Nat := 3

/-- The greater of the widths found so far and those of one more line. -/
def widen (widths : List Nat) (cells : List String) : List Nat :=
  List.zipWith (fun width cell => max width cell.length) widths cells

/-- The widths of the columns of a header and its lines. -/
def columnWidths (header : List String) (lines : List (List String)) : List Nat :=
  lines.foldl widen (header.map String.length)

/-- A cell with spaces up to a width. -/
def pad (width : Nat) (cell : String) : String :=
  cell ++ String.ofList (List.replicate (width - cell.length) ' ')

def paddedLine (widths : List Nat) (cells : List String) : String :=
  (String.ofList (List.replicate gap ' ')).intercalate (List.zipWith pad widths cells)

def layOut (header : List String) (lines : List (List String)) : List String :=
  let widths := columnWidths header lines
  (header :: lines).map fun cells => Text.trimEnd (paddedLine widths cells)

end OneShot.Table
