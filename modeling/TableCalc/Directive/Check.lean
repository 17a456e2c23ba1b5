import TableCalc.Directive.Tree
import TableCalc.Text.Digit

/-!
From what is written to what it means. Numbers are checked against their bounds, names against the
known functions, and the operations of a group are ordered by how tight they bind. Of several faults
the first one in the order of the text is reported.
-/

namespace TableCalc

namespace Directive

/-- What can be wrong with a directive that is otherwise well written. -/
inductive Fault where
  | offsetTooLarge (text : String)
  | indexTooLarge (text : String)
  | relativeTarget (target : Reference)
  | comparedRange (text : String)
  | tooManyPlaces (digits : String)
  | unknownFunction (name : String)
deriving DecidableEq, Repr

def Fault.message : Fault → String
  | .offsetTooLarge text => "offset " ++ text ++ " is too large"
  | .indexTooLarge text => "index " ++ text ++ " is too large"
  | .relativeTarget target =>
      "target " ++ toString target ++ " must not use relative addresses"
  | .comparedRange text => "comparison operand " ++ text ++ " must be a single cell"
  | .tooManyPlaces digits =>
      digits ++ " decimal places is too many, at most " ++ toString Display.maxPlaces ++
        " are allowed"
  | .unknownFunction name => "unknown function " ++ name

/-- The address that is meant. The position zero is the coordinate of the cell that is being
computed. -/
def AddressTree.toAddress (tree : AddressTree) : Except Fault Address :=
  match tree with
  | .first => .ok .first
  | .last => .ok .last
  | .anchor => .ok .anchor
  | .offset negative digits =>
      let size := Nat.ofDigitChars 10 digits 0
      let distance : Int := if negative then -size else size
      if Text.isInt64 distance then .ok (.offset distance)
      else .error (.offsetTooLarge (.ofList tree.chars))
  | .index digits =>
      let position := Nat.ofDigitChars 10 digits 0
      if position = 0 then .ok (.offset 0)
      else if position ≤ Text.maxWord then .ok (.index position)
      else .error (.indexTooLarge (.ofList tree.chars))

def CellTree.toCellRef : CellTree → Except Fault CellRef
  | .row r => return ⟨some (← r.toAddress), none⟩
  | .column c => return ⟨none, some (← c.toAddress)⟩
  | .both r c => return ⟨some (← r.toAddress), some (← c.toAddress)⟩

def ReferenceTree.toReference : ReferenceTree → Except Fault Reference
  | .cell c => return .cell (← c.toCellRef)
  | .range s f => return .range (← s.toCellRef) (← f.toCellRef)

/-- The target that is meant. Targets do not depend on the cell that is being computed. -/
def ReferenceTree.toTarget (tree : ReferenceTree) : Except Fault Reference := do
  let target ← tree.toReference
  if target.isRelative then .error (.relativeTarget target) else .ok target

end Directive

/-- A sum that waits for its next term, joined to it. -/
def Expr.joinTerm : Option (Expr × Operation) → Expr → Expr
  | none, term => term
  | some (sum, op), term => .algebraic op sum term

/-- Orders operations from left to right: a product extends the current term, a sum ends it. -/
def Expr.climb (waiting : Option (Expr × Operation)) (term : Expr) :
    List (Operation × Expr) → Expr
  | [] => joinTerm waiting term
  | (op, operand) :: rest =>
      if op.isProduct then climb waiting (.algebraic op term operand) rest
      else climb (some (joinTerm waiting term, op)) operand rest

namespace Directive

/-- The text of an operand that is a bare range. -/
def OperandTree.range? : OperandTree → Option String
  | .reference (.range s f) => some (.ofList (ReferenceTree.range s f).chars)
  | _ => none

/-- Refuses bare ranges as operands of a comparison. -/
def OperandTree.checkCompared (tree : OperandTree) : Except Fault Unit :=
  match tree.range? with
  | some range => .error (.comparedRange range)
  | none => .ok ()

mutual

/-- The expression that is meant, where `known` says which names are functions. -/
def OperandTree.toExpr (known : String → Bool) : OperandTree → Except Fault Expr
  | .number t => .ok (.literal t)
  | .text t => .ok (.literal t)
  | .reference r => return .reference (← r.toReference)
  | .group head tail => return .climb none (← head.toExpr known) (← tail.toList known)
  | .call name argument =>
      if known name then return .aggregate name (← argument.toExpr known)
      else .error (.unknownFunction name)
  | .conditional left comparator right thenBranch elseBranch => do
      left.checkCompared
      let left ← left.toExpr known
      right.checkCompared
      let right ← right.toExpr known
      return .conditional left comparator right (← thenBranch.toExpr known)
        (← elseBranch.toExpr known)

/-- The operations of a group with their right operands. -/
def ChainTree.toList (known : String → Bool) : ChainTree → Except Fault (List (Operation × Expr))
  | .done => .ok []
  | .link op operand tail => return (op, ← operand.toExpr known) :: (← tail.toList known)

end

def DisplayTree.toDisplay : DisplayTree → Except Fault Display
  | .dateTime => .ok .dateTime
  | .hoursMinutes => .ok .hoursMinutes
  | .fixed digits =>
      let places := Nat.ofDigitChars 10 digits 0
      if places ≤ Display.maxPlaces then .ok (.fixed places)
      else .error (.tooManyPlaces (.ofList digits))

def FormulaTree.toFormula (known : String → Bool) (tree : FormulaTree) : Except Fault Formula :=
  return {
    source := tree.source
    target := ← tree.target.toTarget
    expr := ← tree.operand.toExpr known
    display := ← tree.display.mapM DisplayTree.toDisplay }

end Directive

end TableCalc
