/-!
Addresses of cells as they are written: coordinates, cell references and ranges.
-/

namespace TableCalc

/-- The two directions in which cells are counted. -/
inductive Axis where
  | row | column
deriving DecidableEq, Repr

def Axis.name : Axis → String
  | .row => "row"
  | .column => "column"

def Axis.sigil : Axis → Char
  | .row => '@'
  | .column => '$'

inductive Address where
  /-- A position counted from one. -/
  | index (position : Nat)
  /-- A distance from the cell that is being computed. -/
  | offset (distance : Int)
  /-- The first row or column. -/
  | first
  /-- The last row or column. -/
  | last
  /-- The first row below the header, or the first column. -/
  | anchor
deriving DecidableEq, Repr

/-- Whether an address depends on the cell that is being computed. -/
def Address.isRelative : Address → Bool
  | .offset _ => true
  | _ => false

/-- The written form of an address. Distances other than zero carry a sign. -/
def Address.chars : Address → List Char
  | .index n => Nat.toDigits 10 n
  | .offset k =>
      if k = 0 then ['0'] else (if k < 0 then '-' else '+') :: Nat.toDigits 10 k.natAbs
  | .first => ['<']
  | .last => ['>']
  | .anchor => ['I']

/-- A cell by its row and its column, either of which may be left open. -/
structure CellRef where
  row : Option Address
  column : Option Address
deriving DecidableEq, Repr

def CellRef.on (cell : CellRef) : Axis → Option Address
  | .row => cell.row
  | .column => cell.column

/-- Whether a cell reference depends on the cell that is being computed. Open coordinates do not
count. -/
def CellRef.isRelative (cell : CellRef) : Bool :=
  cell.row.any Address.isRelative || cell.column.any Address.isRelative

def Axis.chars (axis : Axis) (address : Address) : List Char := axis.sigil :: address.chars

def CellRef.chars (cell : CellRef) : List Char :=
  (cell.row.elim [] Axis.row.chars) ++ (cell.column.elim [] Axis.column.chars)

/-- A cell, or the range between two cells. -/
inductive Reference where
  | cell (cell : CellRef)
  | range (start finish : CellRef)
deriving DecidableEq, Repr

def Reference.isRange : Reference → Bool
  | .cell _ => false
  | .range _ _ => true

def Reference.start : Reference → CellRef
  | .cell c => c
  | .range s _ => s

def Reference.finish : Reference → CellRef
  | .cell c => c
  | .range _ f => f

/-- Whether a reference depends on the cell that is being computed. -/
def Reference.isRelative (r : Reference) : Bool := r.start.isRelative || r.finish.isRelative

def Reference.chars : Reference → List Char
  | .cell c => c.chars
  | .range s f => s.chars ++ '.' :: '.' :: f.chars

instance : ToString Address := ⟨fun a => .ofList a.chars⟩

instance : ToString Reference := ⟨fun r => .ofList r.chars⟩

end TableCalc
