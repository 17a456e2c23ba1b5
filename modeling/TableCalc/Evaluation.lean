import TableCalc.Address.Resolve
import TableCalc.Function.Aggregate
import TableCalc.Table

/-!
The values of expressions. An expression is evaluated on a table for the cell that is being
computed. Operations on a single cell and a range combine the single cell with each cell of the
range.
-/

namespace TableCalc

/-- The result of an operation on two numbers. -/
def Operation.combine (op : Operation) (quotientDigits : Nat) (x y : Decimal) :
    Except FormulaError Decimal :=
  match op with
  | .add => .ok (x + y)
  | .subtract => .ok (x - y)
  | .multiply => .ok (x * y)
  | .divide => Aggregate.liftFault (Decimal.divideTo quotientDigits x y)

/-- The result of an operation on two values. At least one of them has to be a single cell, and so
has a divisor. -/
def Operation.apply (op : Operation) (quotientDigits : Nat) (left right : Grid) :
    Except FormulaError Grid :=
  if !left.isCell && !right.isCell then .error (.bothOperandsAreRanges op)
  else if op == .divide && !right.isCell then .error .divisorIsRange
  else if left.isCell then
    right.mapCells fun cell =>
      Decimal.canonical <$> op.combine quotientDigits left.scalar (Cell.number cell)
  else
    left.mapCells fun cell =>
      Decimal.canonical <$> op.combine quotientDigits (Cell.number cell) right.scalar

/-- What expressions are evaluated with: the functions, and the significant digits of quotients. -/
structure Engine where
  functions : Registry
  quotientDigits : Nat

namespace Engine

/-- The engine of some functions with the usual digits. -/
def ofFunctions (functions : Registry) : Engine := ⟨functions, Decimal.defaultQuotientDigits⟩

def standard : Engine := ofFunctions .standard

/-- The engine with another number of digits, at least one. -/
def withQuotientDigits (engine : Engine) (digits : Nat) : Engine :=
  { engine with quotientDigits := max digits 1 }

/-- The value of an expression for the cell at `position`. Only the branch of a condition that is
chosen is evaluated. -/
def eval (engine : Engine) (table : Table) (position : Position) :
    Expr → Except FormulaError Grid
  | .literal text => .ok (.single text)
  | .reference reference => return table.select (← reference.resolve position table.extent)
  | .algebraic op left right => do
      let l ← engine.eval table position left
      let r ← engine.eval table position right
      op.apply engine.quotientDigits l r
  | .aggregate name argument => do
      let input ← engine.eval table position argument
      engine.functions.call engine.quotientDigits name input
  | .conditional left comparator right thenBranch elseBranch => do
      let l ← engine.eval table position left
      let r ← engine.eval table position right
      if !l.isCell || !r.isCell then .error .comparedRange
      else if comparator.holds (compare l.scalar r.scalar) then
        engine.eval table position thenBranch
      else engine.eval table position elseBranch

end Engine

end TableCalc
