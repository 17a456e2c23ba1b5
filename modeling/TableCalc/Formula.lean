import TableCalc.Address

/-!
Formulas: what they compute, which cells they write and how the result is displayed.
-/

namespace TableCalc

inductive Operation where
  | add | subtract | multiply | divide
deriving DecidableEq, Repr

def Operation.name : Operation → String
  | .add => "add"
  | .subtract => "subtract"
  | .multiply => "multiply"
  | .divide => "divide"

def Operation.isProduct : Operation → Bool
  | .multiply | .divide => true
  | .add | .subtract => false

inductive Comparator where
  | gt | lt | ge | le | eq | ne
deriving DecidableEq, Repr

/-- Whether a comparison holds of two numbers in the given order. -/
def Comparator.holds : Comparator → Ordering → Bool
  | .gt, o => o.isGT
  | .lt, o => o.isLT
  | .ge, o => o.isGE
  | .le, o => o.isLE
  | .eq, o => o.isEq
  | .ne, o => o.isNe

inductive Expr where
  /-- A number or text, kept as it is written. -/
  | literal (text : String)
  | reference (reference : Reference)
  | algebraic (op : Operation) (left right : Expr)
  | aggregate (name : String) (argument : Expr)
  | conditional (left : Expr) (comparator : Comparator) (right thenBranch elseBranch : Expr)
deriving DecidableEq, Repr

/-- How a computed number is written into its cell. -/
inductive Display where
  /-- With the given number of fraction digits. -/
  | fixed (places : Nat)
  /-- Milliseconds from 1970-01-01 as a date with hours and minutes. -/
  | dateTime
  /-- Milliseconds as hours and minutes. -/
  | hoursMinutes
deriving DecidableEq, Repr

/-- The most fraction digits that may be asked for. -/
def Display.maxPlaces : Nat := 100

def Display.chars : Display → List Char
  | .fixed places => '%' :: '.' :: Nat.toDigits 10 places ++ ['f']
  | .dateTime => ['d', 't']
  | .hoursMinutes => ['h', 'm']

instance : ToString Display := ⟨fun d => .ofList d.chars⟩

/-- An expression with the cells that it is written to. The source is the text that the formula was
read from. -/
structure Formula where
  source : String
  target : Reference
  expr : Expr
  display : Option Display
deriving DecidableEq, Repr

end TableCalc
