import TableCalc.Directive.Check
import TableCalc.Function.Registry
import TableCalc.Proofs.Outcome

/-!
What a directive means, and when it is admitted. The formulas that a derivation builds are a total
function of its tree; the checks are conditions on the tree that do not depend on the order in which
they are made.
-/

namespace TableCalc

/-- What every operation inherits from its operands, the ordered operations of a group inherit from
theirs. -/
theorem Expr.climb_inherits {P : Expr → Prop}
    (halgebraic : ∀ {op left right}, P left → P right → P (.algebraic op left right))
    {waiting : Option (Expr × Operation)} {term : Expr} {operations : List (Operation × Expr)}
    (hwaiting : ∀ sum ∈ waiting, P sum.1) (hterm : P term)
    (hoperations : ∀ operation ∈ operations, P operation.2) : P (climb waiting term operations) := by
  have hjoin {waiting : Option (Expr × Operation)} {term : Expr}
      (hwaiting : ∀ sum ∈ waiting, P sum.1) (hterm : P term) : P (joinTerm waiting term) := by
    cases waiting with
    | none => exact hterm
    | some sum => exact halgebraic (hwaiting sum rfl) hterm
  induction operations generalizing waiting term with
  | nil => exact hjoin hwaiting hterm
  | cons operation rest ih =>
    rw [List.forall_mem_cons] at hoperations
    rw [climb]
    split
    · exact ih hwaiting (halgebraic hterm hoperations.1) hoperations.2
    · refine ih ?_ hoperations.1 hoperations.2
      rintro _ ⟨⟩
      exact hjoin hwaiting hterm

namespace Directive

/-- The signed number of an offset. -/
def distance (negative : Bool) (digits : List Char) : Int :=
  if negative then -(Nat.ofDigitChars 10 digits 0 : Int) else Nat.ofDigitChars 10 digits 0

/-- A position counted from one; zero is the coordinate of the cell that is being computed. -/
def AddressTree.meaning : AddressTree → Address
  | .offset negative digits => .offset (distance negative digits)
  | .index digits =>
      if Nat.ofDigitChars 10 digits 0 = 0 then .offset 0 else .index (Nat.ofDigitChars 10 digits 0)
  | .first => .first
  | .last => .last
  | .anchor => .anchor

/-- Offsets fit a signed word and positions an unsigned one. -/
def AddressTree.Fits : AddressTree → Prop
  | .offset negative digits =>
      Text.minInt64 ≤ distance negative digits ∧ distance negative digits ≤ Text.maxInt64
  | .index digits => Nat.ofDigitChars 10 digits 0 ≤ Text.maxWord
  | .first | .last | .anchor => True

/-- Neither an offset nor the position zero. -/
def AddressTree.IsAbsolute : AddressTree → Prop
  | .offset _ _ => False
  | .index digits => Nat.ofDigitChars 10 digits 0 ≠ 0
  | .first | .last | .anchor => True

def CellTree.meaning : CellTree → CellRef
  | .row r => ⟨some r.meaning, none⟩
  | .column c => ⟨none, some c.meaning⟩
  | .both r c => ⟨some r.meaning, some c.meaning⟩

/-- All coordinates satisfy `p`. -/
def CellTree.All (p : AddressTree → Prop) : CellTree → Prop
  | .row r => p r
  | .column c => p c
  | .both r c => p r ∧ p c

def ReferenceTree.meaning : ReferenceTree → Reference
  | .cell c => .cell c.meaning
  | .range s f => .range s.meaning f.meaning

def ReferenceTree.All (p : AddressTree → Prop) : ReferenceTree → Prop
  | .cell c => c.All p
  | .range s f => s.All p ∧ f.All p

def OperandTree.IsRange : OperandTree → Prop
  | .reference (.range _ _) => True
  | _ => False

mutual

def OperandTree.meaning : OperandTree → Expr
  | .number t => .literal t
  | .text t => .literal t
  | .reference r => .reference r.meaning
  | .group head tail => .climb none head.meaning tail.meaning
  | .call name argument => .aggregate name argument.meaning
  | .conditional left comparator right thenBranch elseBranch =>
      .conditional left.meaning comparator right.meaning thenBranch.meaning elseBranch.meaning

def ChainTree.meaning : ChainTree → List (Operation × Expr)
  | .done => []
  | .link op operand tail => (op, operand.meaning) :: tail.meaning

end

mutual

/-- The numbers of the coordinates fit, every called name is the one that its function has, and no
operand of a comparison is a bare range. -/
def OperandTree.Admitted (registry : Registry) : OperandTree → Prop
  | .number _ => True
  | .text _ => True
  | .reference r => r.All AddressTree.Fits
  | .group head tail => head.Admitted registry ∧ tail.Admitted registry
  | .call name argument =>
      (∃ f, registry.find? name = some f ∧ f.info.name = name) ∧ argument.Admitted registry
  | .conditional left _ right thenBranch elseBranch =>
      (¬ left.IsRange ∧ left.Admitted registry) ∧ (¬ right.IsRange ∧ right.Admitted registry) ∧
        thenBranch.Admitted registry ∧ elseBranch.Admitted registry

def ChainTree.Admitted (registry : Registry) : ChainTree → Prop
  | .done => True
  | .link _ operand tail => operand.Admitted registry ∧ tail.Admitted registry

end

def DisplayTree.meaning : DisplayTree → Display
  | .fixed digits => .fixed (Nat.ofDigitChars 10 digits 0)
  | .dateTime => .dateTime
  | .hoursMinutes => .hoursMinutes

def DisplayTree.Admitted : DisplayTree → Prop
  | .fixed digits => Nat.ofDigitChars 10 digits 0 ≤ Display.maxPlaces
  | .dateTime | .hoursMinutes => True

def FormulaTree.meaning (tree : FormulaTree) : Formula where
  source := tree.source
  target := tree.target.meaning
  expr := tree.operand.meaning
  display := tree.display.map DisplayTree.meaning

structure FormulaTree.Admitted (registry : Registry) (tree : FormulaTree) : Prop where
  fits : tree.target.All AddressTree.Fits
  isAbsolute : tree.target.All AddressTree.IsAbsolute
  operand : tree.operand.Admitted registry
  display : ∀ d ∈ tree.display, d.Admitted

private theorem check_eq_ok_iff {ε α : Type} {c : Prop} [Decidable c] {e : ε} {a b : α} :
    (if c then Except.ok a else .error e) = .ok b ↔ c ∧ a = b := by
  by_cases h : c <;> simp [h]

theorem AddressTree.toAddress_eq_ok_iff {tree : AddressTree} {a : Address} :
    tree.toAddress = .ok a ↔ tree.Fits ∧ tree.meaning = a := by
  cases tree with
  | offset negative digits =>
    have hfits : Text.isInt64 (distance negative digits) = true ↔
        (offset negative digits).Fits := by
      simp [Text.isInt64, Fits]
    exact check_eq_ok_iff.trans (and_congr_left' hfits)
  | index digits =>
    simp only [toAddress, Fits, meaning]
    split
    · next hzero => simp [hzero]
    · exact check_eq_ok_iff
  | first | last | anchor => simp [toAddress, Fits, meaning]

theorem AddressTree.isRelative_meaning (tree : AddressTree) :
    tree.meaning.isRelative = false ↔ tree.IsAbsolute := by
  cases tree with
  | offset negative digits => simp [meaning, Address.isRelative, IsAbsolute]
  | index digits =>
    by_cases hzero : Nat.ofDigitChars 10 digits 0 = 0
    · simp [meaning, Address.isRelative, IsAbsolute, hzero]
    · simp [meaning, Address.isRelative, IsAbsolute, hzero]
  | first | last | anchor => simp [meaning, Address.isRelative, IsAbsolute]

theorem CellTree.toCellRef_eq_ok_iff {tree : CellTree} {cell : CellRef} :
    tree.toCellRef = .ok cell ↔ tree.All AddressTree.Fits ∧ tree.meaning = cell := by
  cases tree with
  | row r | column c =>
    simp only [toCellRef, bind_eq_ok_iff, pure_eq_ok_iff, AddressTree.toAddress_eq_ok_iff, All,
      meaning, and_assoc, exists_and_left, exists_eq_left']
  | both r c =>
    simp only [toCellRef, bind_eq_ok_iff, pure_eq_ok_iff, AddressTree.toAddress_eq_ok_iff, All,
      meaning, and_assoc, exists_and_left, exists_eq_left']

theorem CellTree.isRelative_meaning (tree : CellTree) :
    tree.meaning.isRelative = false ↔ tree.All AddressTree.IsAbsolute := by
  cases tree with
  | row r | column c | both r c =>
    simp [meaning, CellRef.isRelative, All, AddressTree.isRelative_meaning]

theorem ReferenceTree.toReference_eq_ok_iff {tree : ReferenceTree} {r : Reference} :
    tree.toReference = .ok r ↔ tree.All AddressTree.Fits ∧ tree.meaning = r := by
  cases tree with
  | cell c | range s f =>
    simp only [toReference, bind_eq_ok_iff, pure_eq_ok_iff, CellTree.toCellRef_eq_ok_iff, All,
      meaning, and_assoc, exists_and_left, exists_eq_left']

theorem ReferenceTree.isRelative_meaning (tree : ReferenceTree) :
    tree.meaning.isRelative = false ↔ tree.All AddressTree.IsAbsolute := by
  cases tree with
  | cell c | range s f =>
    simp [meaning, Reference.isRelative, Reference.start, Reference.finish, All,
      CellTree.isRelative_meaning]

theorem ReferenceTree.toTarget_eq_ok_iff {tree : ReferenceTree} {r : Reference} :
    tree.toTarget = .ok r ↔
      (tree.All AddressTree.Fits ∧ tree.All AddressTree.IsAbsolute) ∧ tree.meaning = r := by
  simp only [toTarget, bind_eq_ok_iff, toReference_eq_ok_iff, and_assoc, exists_and_left,
    exists_eq_left', ← isRelative_meaning]
  refine and_congr_right fun _ => ?_
  cases tree.meaning.isRelative with
  | false => simp
  | true => simp

theorem OperandTree.checkCompared_eq_ok_iff {tree : OperandTree} {u : Unit} :
    tree.checkCompared = .ok u ↔ ¬ tree.IsRange := by
  cases tree with
  | reference r =>
    cases r with
    | cell c => simp [checkCompared, range?, IsRange]
    | range s f => simp [checkCompared, range?, IsRange]
  | conditional | call | group | number | text => simp [checkCompared, range?, IsRange]

theorem isExactName_iff {registry : Registry} {name : String} :
    registry.isExactName name = true ↔
      ∃ f, registry.find? name = some f ∧ f.info.name = name := by
  simp [Registry.isExactName, Option.any_eq_true]

mutual

theorem OperandTree.toExpr_eq_ok_iff {registry : Registry} (tree : OperandTree) {e : Expr} :
    tree.toExpr registry.isExactName = .ok e ↔ tree.Admitted registry ∧ tree.meaning = e := by
  cases tree with
  | number t | text t => simp [OperandTree.toExpr, OperandTree.Admitted, OperandTree.meaning]
  | reference r =>
    simp only [OperandTree.toExpr, OperandTree.Admitted, OperandTree.meaning, bind_eq_ok_iff,
      pure_eq_ok_iff, ReferenceTree.toReference_eq_ok_iff, and_assoc, exists_and_left,
      exists_eq_left']
  | group head tail =>
    simp only [OperandTree.toExpr, OperandTree.Admitted, OperandTree.meaning, bind_eq_ok_iff,
      pure_eq_ok_iff, OperandTree.toExpr_eq_ok_iff head, ChainTree.toList_eq_ok_iff tail, and_assoc,
      exists_and_left, exists_eq_left']
  | call name argument =>
    simp only [OperandTree.toExpr, OperandTree.Admitted, OperandTree.meaning, ← isExactName_iff]
    cases registry.isExactName name with
    | false => simp
    | true =>
      simp only [if_true, bind_eq_ok_iff, pure_eq_ok_iff, OperandTree.toExpr_eq_ok_iff argument,
        and_assoc, exists_and_left, exists_eq_left', true_and]
  | conditional left comparator right thenBranch elseBranch =>
    simp only [OperandTree.toExpr, OperandTree.Admitted, OperandTree.meaning, bind_eq_ok_iff,
      pure_eq_ok_iff, OperandTree.checkCompared_eq_ok_iff, OperandTree.toExpr_eq_ok_iff left,
      OperandTree.toExpr_eq_ok_iff right, OperandTree.toExpr_eq_ok_iff thenBranch,
      OperandTree.toExpr_eq_ok_iff elseBranch, and_assoc, exists_and_left, exists_eq_left',
      exists_const]

theorem ChainTree.toList_eq_ok_iff {registry : Registry} (tree : ChainTree)
    {operations : List (Operation × Expr)} :
    tree.toList registry.isExactName = .ok operations ↔
      tree.Admitted registry ∧ tree.meaning = operations := by
  cases tree with
  | done => simp [ChainTree.toList, ChainTree.Admitted, ChainTree.meaning]
  | link op operand tail =>
    simp only [ChainTree.toList, ChainTree.Admitted, ChainTree.meaning, bind_eq_ok_iff,
      pure_eq_ok_iff, OperandTree.toExpr_eq_ok_iff operand, ChainTree.toList_eq_ok_iff tail,
      and_assoc, exists_and_left, exists_eq_left']

end

theorem DisplayTree.toDisplay_eq_ok_iff {tree : DisplayTree} {display : Display} :
    tree.toDisplay = .ok display ↔ tree.Admitted ∧ tree.meaning = display := by
  cases tree with
  | fixed digits => exact check_eq_ok_iff
  | dateTime | hoursMinutes => simp [toDisplay, Admitted, meaning]

theorem mapM_toDisplay_eq_ok_iff {tree : Option DisplayTree} {display : Option Display} :
    tree.mapM DisplayTree.toDisplay = .ok display ↔
      (∀ d ∈ tree, d.Admitted) ∧ tree.map DisplayTree.meaning = display := by
  cases tree with
  | none =>
    refine pure_eq_ok_iff.trans ?_
    simp
  | some d =>
    have hmap : (some d).mapM DisplayTree.toDisplay = some <$> d.toDisplay := rfl
    rw [hmap, map_eq_ok_iff]
    simp [DisplayTree.toDisplay_eq_ok_iff, and_assoc]

theorem FormulaTree.toFormula_eq_ok_iff {registry : Registry} {tree : FormulaTree}
    {formula : Formula} :
    tree.toFormula registry.isExactName = .ok formula ↔
      tree.Admitted registry ∧ tree.meaning = formula := by
  have hadmitted : tree.Admitted registry ↔
      tree.target.All AddressTree.Fits ∧ tree.target.All AddressTree.IsAbsolute ∧
        tree.operand.Admitted registry ∧ ∀ d ∈ tree.display, d.Admitted :=
    ⟨fun ⟨hfits, habsolute, hoperand, hdisplay⟩ => ⟨hfits, habsolute, hoperand, hdisplay⟩,
      fun ⟨hfits, habsolute, hoperand, hdisplay⟩ => ⟨hfits, habsolute, hoperand, hdisplay⟩⟩
  simp only [toFormula, hadmitted, meaning, bind_eq_ok_iff, pure_eq_ok_iff,
    ReferenceTree.toTarget_eq_ok_iff, OperandTree.toExpr_eq_ok_iff, mapM_toDisplay_eq_ok_iff,
    and_assoc, exists_and_left, exists_eq_left']

theorem mapM_toFormula_eq_ok_iff {registry : Registry} {trees : List FormulaTree}
    {formulas : List Formula} :
    trees.mapM (FormulaTree.toFormula registry.isExactName) = .ok formulas ↔
      (∀ tree ∈ trees, tree.Admitted registry) ∧ trees.map FormulaTree.meaning = formulas := by
  induction trees generalizing formulas with
  | nil =>
    rw [List.mapM_nil, pure_eq_ok_iff]
    simp
  | cons tree trees ih =>
    simp only [List.mapM_cons, bind_eq_ok_iff, pure_eq_ok_iff, FormulaTree.toFormula_eq_ok_iff, ih,
      List.forall_mem_cons, List.map_cons, and_assoc, exists_and_left, exists_eq_left']

end Directive

end TableCalc
