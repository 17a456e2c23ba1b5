import TableCalc.Cell
import TableCalc.Decimal.Printer

/-!
Grids of cell text, the values that expressions have. The shape of a grid decides how operations
treat it: single cells combine with anything, all other grids are ranges.
-/

namespace TableCalc

/-- The shapes of grids. A `row` stretches over several rows of one column, a `column` over several
columns of one row. -/
inductive Shape where
  | cell | row | column | block
deriving DecidableEq, Repr

/-- The shape of a grid of the given size. -/
def Shape.ofSize (rows columns : Nat) : Shape :=
  match decide (1 < rows), decide (1 < columns) with
  | false, false => .cell
  | true, false => .row
  | false, true => .column
  | true, true => .block

def Shape.name : Shape → String
  | .cell => "cell"
  | .row => "row"
  | .column => "column"
  | .block => "block"

structure Grid where
  cells : List (List String)
deriving DecidableEq, Repr

namespace Grid

def single (text : String) : Grid := ⟨[[text]]⟩

/-- A grid of one cell that holds a number. -/
def ofDecimal (x : Decimal) : Grid := single x.canonical

/-- A row with blank cells at its end, up to the given width. -/
def padRow (width : Nat) (row : List String) : List String := row.rightpad width ""

/-- The number of cells of the longest row. -/
def widest (rows : List (List String)) : Nat := (rows.map List.length).foldl max 0

/-- The grid of the given rows. Short rows get blank cells, and there are at least one row and one
column. -/
def ofRows (rows : List (List String)) : Grid :=
  ⟨(if rows.isEmpty then [[]] else rows).map (padRow (max (widest rows) 1))⟩

def rowCount (g : Grid) : Nat := g.cells.length

/-- The number of columns, which the first row decides. -/
def columnCount (g : Grid) : Nat := (g.cells.head?.getD []).length

def shape (g : Grid) : Shape := .ofSize g.rowCount g.columnCount

/-- Whether the grid counts as a single cell. -/
def isCell (g : Grid) : Bool := g.shape == .cell

/-- The text of a cell; blank outside the grid. -/
def text (g : Grid) (row column : Nat) : String := ((g.cells[row]?.getD [])[column]?).getD ""

def number (g : Grid) (row column : Nat) : Decimal := Cell.number (g.text row column)

/-- The number that a grid of one cell counts as. -/
def scalar (g : Grid) : Decimal := g.number 0 0

/-- The numbers of all cells, row by row. -/
def numbers (g : Grid) : List Decimal := g.cells.flatten.map Cell.number

/-- The grid of the same shape with every cell replaced, row by row. The first failure wins. -/
def mapCells {ε : Type} (f : String → Except ε String) (g : Grid) : Except ε Grid :=
  return ⟨← g.cells.mapM fun row => row.mapM f⟩

/-- The grid as the text of one cell: a single cell as it is, anything else as a list of the cells
that are not blank. -/
def render (g : Grid) : String :=
  if g.isCell then g.text 0 0
  else
    let items := (g.cells.flatten.map Text.trimmed).filter (!·.isEmpty)
    "[" ++ ", ".intercalate items ++ "]"

end Grid

end TableCalc
