import TableCalc.Formula

/-!
Directives as they are written, before their numbers are checked against any bound and before the
names of functions are looked up.
-/

namespace TableCalc.Directive

inductive AddressTree where
  | offset (negative : Bool) (digits : List Char)
  | index (digits : List Char)
  | first
  | last
  | anchor
deriving DecidableEq, Repr

/-- A written cell reference: a row, a column or both. -/
inductive CellTree where
  | row (row : AddressTree)
  | column (column : AddressTree)
  | both (row column : AddressTree)
deriving DecidableEq, Repr

inductive ReferenceTree where
  | cell (cell : CellTree)
  | range (start finish : CellTree)
deriving DecidableEq, Repr

mutual

inductive OperandTree where
  | conditional (left : OperandTree) (comparator : Comparator)
      (right thenBranch elseBranch : OperandTree)
  | call (name : String) (argument : OperandTree)
  | reference (reference : ReferenceTree)
  | group (head : OperandTree) (tail : ChainTree)
  | number (text : String)
  | text (text : String)

/-- The operations of a group after its first operand, in order. -/
inductive ChainTree where
  | done
  | link (op : Operation) (operand : OperandTree) (tail : ChainTree)

end

inductive DisplayTree where
  | fixed (digits : List Char)
  | dateTime
  | hoursMinutes
deriving DecidableEq, Repr

structure FormulaTree where
  source : String
  target : ReferenceTree
  operand : OperandTree
  display : Option DisplayTree

def AddressTree.chars : AddressTree → List Char
  | .offset negative digits => (if negative then '-' else '+') :: digits
  | .index digits => digits
  | .first => ['<']
  | .last => ['>']
  | .anchor => ['I']

def CellTree.chars : CellTree → List Char
  | .row r => '@' :: r.chars
  | .column c => '$' :: c.chars
  | .both r c => '@' :: r.chars ++ '$' :: c.chars

def ReferenceTree.chars : ReferenceTree → List Char
  | .cell c => c.chars
  | .range s f => s.chars ++ '.' :: '.' :: f.chars

end TableCalc.Directive
