import TableCalc.Area
import TableCalc.Error
import TableCalc.Text.Digit

/-!
Resolving addresses against the size of a table and the cell that is being computed. Nothing is
clamped: an address outside the table is an error.
-/

namespace TableCalc

/-- The position counted from zero that an address means, inside the table or not. Very large
positions and distances end at the bounds of 64 bits. -/
def Address.meant (address : Address) (axis : Axis) (context size : Nat) : Int :=
  match address with
  | .index n => min (n : Int) Text.maxInt64 - 1
  | .offset k => Text.clampInt64 (context + k)
  | .first => 0
  | .last => size - 1
  | .anchor =>
      match axis with
      | .row => 1
      | .column => 0

/-- The position that an address means, if it is inside the table. -/
def Address.resolve (address : Address) (axis : Axis) (context : Position) (extent : Extent) :
    Except FormulaError Nat :=
  let size := extent.on axis
  let position := address.meant axis (context.on axis) size
  if 0 ≤ position ∧ position < size then .ok position.toNat
  else .error (.addressOutOfRange axis address (Text.clampInt64 (position + 1)) size)

/-- A coordinate of a source cell. An open one is that of the cell that is being computed. -/
def resolveCoordinate (address : Option Address) (axis : Axis) (context : Position)
    (extent : Extent) : Except FormulaError Nat :=
  match address with
  | some a => a.resolve axis context extent
  | none => .ok (context.on axis)

/-- The cell that a cell reference means, its row resolved before its column. -/
def CellRef.resolve (cell : CellRef) (context : Position) (extent : Extent) :
    Except FormulaError Position :=
  return ⟨← resolveCoordinate cell.row .row context extent,
    ← resolveCoordinate cell.column .column context extent⟩

def Reference.resolve (reference : Reference) (context : Position) (extent : Extent) :
    Except FormulaError Rectangle :=
  match reference with
  | .cell c => do
      let p ← c.resolve context extent
      return ⟨p.row, p.column, p.row, p.column⟩
  | .range start finish => do
      let low ← start.resolve context extent
      let high ← finish.resolve context extent
      if high.row < low.row ∨ high.column < low.column then .error (.emptyRange reference)
      else .ok ⟨low.row, low.column, high.row, high.column⟩

/-- Where a target begins on an axis that is left open: at the first row below the header, or at the
first column. -/
def Axis.firstTarget : Axis → Nat
  | .row => 1
  | .column => 0

/-- One end of a target on an axis: a written address has to be inside the table, and an open end is
where the axis begins or stops, if there is such a row or column. Targets have no offsets, so the
cell that is being computed plays no part. -/
def targetEnd (address : Option Address) (axis : Axis) (extent : Extent) (whenOpen : Option Nat) :
    Except FormulaError (Option Nat) :=
  match address with
  | some a => some <$> a.resolve axis ⟨0, 0⟩ extent
  | none => .ok whenOpen

/-- What a target covers on one axis, from its first to its last position; nothing if an open end
finds no row or column. -/
def targetSpan (start finish : Option Address) (axis : Axis) (extent : Extent) :
    Except FormulaError (Option (Nat × Nat)) := do
  let size := extent.on axis
  let low? ← targetEnd start axis extent
    (if axis.firstTarget < size then some axis.firstTarget else none)
  match low? with
  | none => return none
  | some low =>
      let high? ← targetEnd finish axis extent (if 0 < size then some (size - 1) else none)
      return high?.map fun high => (low, high)

/-- The cells that a target is written to, row by row. An open row covers all rows but the header,
an open column all columns. -/
def Reference.targetCells (target : Reference) (extent : Extent) :
    Except FormulaError (List Position) := do
  let rows ← targetSpan target.start.row target.finish.row .row extent
  let columns ← targetSpan target.start.column target.finish.column .column extent
  match rows, columns with
  | some (top, bottom), some (left, right) =>
      if bottom < top ∨ right < left then .error (.emptyRange target)
      else .ok (Rectangle.positions ⟨top, left, bottom, right⟩)
  | _, _ => .ok []

end TableCalc
