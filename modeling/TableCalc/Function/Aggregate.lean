import TableCalc.Decimal.Arithmetic
import TableCalc.Function.Registry

/-!
The functions sum, mean and median. Each one takes the cells of a selection row by row as numbers,
blanks and words as zero, and gives a single cell.
-/

namespace TableCalc.Aggregate

/-- The value of a calculation, with its faults as errors of the formula. -/
def liftFault {α : Type} (result : Except Decimal.Fault α) : Except FormulaError α :=
  result.mapError FormulaError.ofFault

def sumOf (input : Grid) : Grid := .ofDecimal (Decimal.total input.numbers)

/-- The sum of all cells over their number. -/
def meanOf (quotientDigits : Nat) (input : Grid) : Except FormulaError Grid := do
  let numbers := input.numbers
  let mean ← liftFault
    (Decimal.divideTo quotientDigits (Decimal.total numbers) (.ofInt numbers.length))
  return .ofDecimal mean

/-- Numbers in ascending order. -/
def ascending (numbers : List Decimal) : List Decimal :=
  numbers.mergeSort fun x y => (compare x y).isLE

/-- The middle one of all cells, or half the sum of the two in the middle. -/
def medianOf (input : Grid) : Except FormulaError Grid := do
  let sorted := ascending input.numbers
  let count := sorted.length
  if count == 0 then .error (.internal "median of an empty selection")
  else if count % 2 == 1 then return .ofDecimal (sorted[count / 2]?.getD 0)
  else
    let pair := sorted[count / 2 - 1]?.getD 0 + sorted[count / 2]?.getD 0
    return .ofDecimal (← liftFault (Decimal.divide pair (.ofInt 2)))

def sum : Function where
  info :=
    { name := "sum"
      description := "Exact total of every cell in the selection"
      usage := "sum(range)"
      parameters := [.required "range" "Cell | Range" "Cells to add up"]
      returns := "Cell"
      examples := ["@>$2=sum(@I..@-1)", "$4=sum($1..$3)"]
      category := "aggregate"
      related := ["mean", "median"] }
  call := fun _ input => .ok (sumOf input)

def mean : Function where
  info :=
    { name := "mean"
      description := "Arithmetic mean of every cell in the selection"
      usage := "mean(range)"
      parameters := [.required "range" "Cell | Range" "Cells to average"]
      returns := "Cell"
      examples := ["@>$2=mean(@I..@-1)"]
      category := "aggregate"
      related := ["sum", "median"] }
  call := fun context => meanOf context.quotientDigits

def median : Function where
  info :=
    { name := "median"
      description :=
        "Middle value of the selection (average of the two middle values if even count)"
      usage := "median(range)"
      parameters := [.required "range" "Cell | Range" "Cells to take the median of"]
      returns := "Cell"
      examples := ["@>$2=median(@I..@-1)", "median over 1, 2 → 1.5"]
      category := "aggregate"
      related := ["mean", "sum"] }
  call := fun _ input => medianOf input

end TableCalc.Aggregate

namespace TableCalc

/-- The functions that are always there unless others are chosen. -/
def Registry.standard : Registry := .ofList [Aggregate.sum, Aggregate.mean, Aggregate.median]

end TableCalc
