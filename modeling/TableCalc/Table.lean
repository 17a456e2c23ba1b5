import TableCalc.Area
import TableCalc.Grid

/-!
Tables of cell text. The first row is the header. Rows may be of different length; a cell that a row
does not have reads as blank.
-/

namespace TableCalc

structure Table where
  rows : List (List String)
deriving DecidableEq, Repr

namespace Table

/-- The size: the number of rows and the length of the longest one. -/
def extent (t : Table) : Extent := ⟨t.rows.length, Grid.widest t.rows⟩

/-- The text of a cell; blank if there is no such cell. -/
def text (t : Table) (p : Position) : String := ((t.rows[p.row]?.getD [])[p.column]?).getD ""

/-- The row with one cell replaced, and with blank cells up to it. -/
def setInRow (column : Nat) (text : String) (row : List String) : List String :=
  (Grid.padRow (column + 1) row).set column text

/-- The table with one cell replaced, and with empty rows up to it. -/
def set (t : Table) (p : Position) (text : String) : Table :=
  ⟨(t.rows.rightpad (p.row + 1) []).modify p.row (setInRow p.column text)⟩

def select (t : Table) (r : Rectangle) : Grid :=
  .ofRows ((upTo r.top r.bottom).map fun row =>
    (upTo r.left r.right).map fun column => t.text ⟨row, column⟩)

end Table

end TableCalc
