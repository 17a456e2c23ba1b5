import TableCalc.Address

/-!
Cells by position, counted from zero, and the rectangles that they form.
-/

namespace TableCalc

structure Position where
  row : Nat
  column : Nat
deriving DecidableEq, Repr

def Position.on (p : Position) : Axis → Nat
  | .row => p.row
  | .column => p.column

structure Extent where
  rows : Nat
  columns : Nat
deriving DecidableEq, Repr

def Extent.on (extent : Extent) : Axis → Nat
  | .row => extent.rows
  | .column => extent.columns

def Extent.Contains (extent : Extent) (p : Position) : Prop :=
  p.row < extent.rows ∧ p.column < extent.columns

instance (extent : Extent) (p : Position) : Decidable (extent.Contains p) :=
  inferInstanceAs (Decidable (_ ∧ _))

/-- The cells between two corners, both included. -/
structure Rectangle where
  top : Nat
  left : Nat
  bottom : Nat
  right : Nat
deriving DecidableEq, Repr

/-- The numbers from `low` to `high`, both included. -/
def upTo (low high : Nat) : List Nat := List.range' low (high + 1 - low)

/-- The positions of a rectangle, row by row. -/
def Rectangle.positions (r : Rectangle) : List Position :=
  (upTo r.top r.bottom).flatMap fun row => (upTo r.left r.right).map fun column => ⟨row, column⟩

end TableCalc
