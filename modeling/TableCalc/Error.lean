import TableCalc.Decimal.Basic
import TableCalc.Formula

/-!
The errors of reading and applying formulas. Each one has a stable code for programs, a message for
people, and a hint.
-/

namespace TableCalc

/-- Why a formula could not be read or applied. -/
inductive FormulaError where
  | unreadable (directive detail : String)
  /-- With the names of functions that are similar, the most similar one first. -/
  | unknownFunction (name directive : String) (similar : List String)
  /-- With the position that the address means, counted from one. -/
  | addressOutOfRange (axis : Axis) (address : Address) (position : Int) (size : Nat)
  | emptyRange (range : Reference)
  | bothOperandsAreRanges (op : Operation)
  | divisorIsRange
  | comparedRange
  | divisionByZero
  | internal (message : String)
deriving DecidableEq, Repr

namespace FormulaError

def code : FormulaError → String
  | .unreadable .. => "PARSE_ERROR"
  | .unknownFunction .. => "UNKNOWN_FUNCTION"
  | .addressOutOfRange .. => "ADDRESS_OUT_OF_RANGE"
  | .emptyRange _ => "EMPTY_RANGE"
  | .bothOperandsAreRanges _ => "BOTH_OPERANDS_ARE_RANGES"
  | .divisorIsRange => "DIVISOR_MUST_BE_CELL"
  | .comparedRange => "CONDITION_OPERAND_MUST_BE_CELL"
  | .divisionByZero => "DIV_ZERO"
  | .internal _ => "INTERNAL"

def message : FormulaError → String
  | .unreadable directive _ => "Formula '" ++ directive ++ "' could not be parsed"
  | .unknownFunction name directive _ =>
      "Unknown function '" ++ name ++ "' in formula '" ++ directive ++ "'"
  | .addressOutOfRange axis address position size =>
      axis.name ++ " address " ++ .ofList (axis.chars address) ++ " is outside the table (index " ++
        toString position ++ ", " ++ axis.name ++ " count " ++ toString size ++ ")"
  | .emptyRange range => "Range " ++ toString range ++ " is empty"
  | .bothOperandsAreRanges op =>
      "At least one operand in algebraic \"" ++ op.name ++ "\" must be a single cell."
  | .divisorIsRange => "Right operand in algebraic \"divide\" must be a single cell."
  | .comparedRange => "Both sides of a comparison in \"if\" must be a single cell."
  | .divisionByZero => "Division by zero"
  | .internal message => "Internal error: " ++ message

def suggestion : FormulaError → String
  | .unreadable _ detail =>
      if detail.isEmpty then "Check formula syntax: target=source[;display]" else detail
  | .unknownFunction _ _ similar =>
      if similar.isEmpty then "Use list_functions to see available functions"
      else "Did you mean: " ++ ", ".intercalate similar ++ "?"
  | .addressOutOfRange .. => "Addresses are 1-based; @1 is the header row"
  | .emptyRange _ => "Write range endpoints in ascending order"
  | .bothOperandsAreRanges _ => "Aggregate one side first, e.g. sum(...)"
  | .divisorIsRange => "Divide by a single cell or an aggregate"
  | .comparedRange => "Compare single cells or aggregates"
  | .divisionByZero => "Ensure divisor is not zero"
  | .internal _ => "This is a bug, please report it"

/-- The error that a fault of arithmetic causes in a formula. -/
def ofFault : Decimal.Fault → FormulaError
  | .divisionByZero => .divisionByZero
  | fault => .internal fault.message

end FormulaError

end TableCalc
