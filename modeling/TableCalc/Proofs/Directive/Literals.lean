import TableCalc.Directive.Parse
import TableCalc.Proofs.Directive.Derivation
import TableCalc.Proofs.Text.Blank

/-!
The literals of formulas. Each one is written out in the directive that the formula was read from.
-/

namespace TableCalc

/-- The literals of an expression, with those of both branches of a condition. -/
def Expr.literals : Expr → List String
  | .literal text => [text]
  | .reference _ => []
  | .algebraic _ left right => left.literals ++ right.literals
  | .aggregate _ argument => argument.literals
  | .conditional left _ right thenBranch elseBranch =>
      left.literals ++ right.literals ++ (thenBranch.literals ++ elseBranch.literals)

/-- An expression whose literals have characters of a text only. -/
def Expr.WrittenIn (cs : List Char) (expr : Expr) : Prop :=
  ∀ literal ∈ expr.literals, ∀ c ∈ literal.toList, c ∈ cs

namespace Expr.WrittenIn

variable {cs ds : List Char}

theorem mono {expr : Expr} (h : expr.WrittenIn cs) (hcs : ∀ c ∈ cs, c ∈ ds) : expr.WrittenIn ds :=
  fun literal hmem c hc => hcs c (h literal hmem c hc)

theorem literal {text : List Char} (h : ∀ c ∈ text, c ∈ cs) :
    (Expr.literal (.ofList text)).WrittenIn cs := by
  intro literal hmem c hc
  rw [List.mem_singleton.mp hmem, String.toList_ofList] at hc
  exact h c hc

theorem algebraic {op : Operation} {left right : Expr} (hleft : left.WrittenIn cs)
    (hright : right.WrittenIn cs) : (Expr.algebraic op left right).WrittenIn cs :=
  List.forall_mem_append.mpr ⟨hleft, hright⟩

theorem conditional {comparator : Comparator} {left right thenBranch elseBranch : Expr}
    (hleft : left.WrittenIn cs) (hright : right.WrittenIn cs) (hthen : thenBranch.WrittenIn cs)
    (helse : elseBranch.WrittenIn cs) :
    (Expr.conditional left comparator right thenBranch elseBranch).WrittenIn cs :=
  List.forall_mem_append.mpr
    ⟨List.forall_mem_append.mpr ⟨hleft, hright⟩, List.forall_mem_append.mpr ⟨hthen, helse⟩⟩

end Expr.WrittenIn

namespace Directive.Grammar

mutual

theorem Operand.writtenIn {cs : List Char} {tree : OperandTree} (h : Operand cs tree) :
    tree.meaning.WrittenIn cs := by
  cases h with
  | conditional _ hleft _ _ hright _ hthen _ helse _ =>
    rw [OperandTree.meaning]
    refine .conditional (hleft.writtenIn.mono ?_) (hright.writtenIn.mono ?_)
      (hthen.writtenIn.mono ?_) (helse.writtenIn.mono ?_)
    all_goals simp +contextual
  | call _ _ _ hargument _ =>
    rw [OperandTree.meaning]
    exact hargument.writtenIn.mono (by simp +contextual)
  | reference _ =>
    rw [OperandTree.meaning]
    exact fun literal hmem => (List.not_mem_nil hmem).elim
  | group _ hhead htail _ =>
    rw [OperandTree.meaning]
    refine Expr.climb_inherits .algebraic (by simp) (hhead.writtenIn.mono ?_) fun operation hmem =>
      (htail.writtenIn operation hmem).mono ?_
    all_goals simp +contextual
  | number _ =>
    rw [OperandTree.meaning]
    exact .literal (by simp)
  | text _ =>
    rw [OperandTree.meaning]
    exact .literal (by simp +contextual)

theorem Chain.writtenIn {cs : List Char} {tree : ChainTree} (h : Chain cs tree) :
    ∀ operation ∈ tree.meaning, operation.2.WrittenIn cs := by
  cases h with
  | done => simp [ChainTree.meaning]
  | link _ _ hoperand htail =>
    rw [ChainTree.meaning, List.forall_mem_cons]
    exact ⟨hoperand.writtenIn.mono (by simp +contextual),
      fun operation hmem => (htail.writtenIn operation hmem).mono (by simp +contextual)⟩

end

theorem Formula.writtenIn {cs : List Char} {tree : FormulaTree} (h : Formula cs tree) :
    tree.meaning.expr.WrittenIn cs := by
  cases h with
  | plain _ _ hoperand => exact hoperand.writtenIn.mono (by simp +contextual)
  | displayed _ _ hoperand _ _ => exact hoperand.writtenIn.mono (by simp +contextual)

theorem Formulas.writtenIn {cs : List Char} {trees : List FormulaTree} (h : Formulas cs trees) :
    ∀ tree ∈ trees, tree.meaning.expr.WrittenIn cs := by
  induction h with
  | one h =>
    rw [List.forall_mem_singleton]
    exact h.writtenIn
  | more hformula _ _ ih =>
    rw [List.forall_mem_cons]
    exact ⟨hformula.writtenIn.mono (by simp +contextual),
      fun tree hmem => (ih tree hmem).mono (by simp +contextual)⟩

theorem Root.writtenIn {cs : List Char} {trees : List FormulaTree} (h : Root cs trees) :
    ∀ tree ∈ trees, tree.meaning.expr.WrittenIn cs := by
  cases h with
  | bare _ h _ => exact fun tree hmem => (h.writtenIn tree hmem).mono (by simp +contextual)
  | wrapped _ _ h _ _ => exact fun tree hmem => (h.writtenIn tree hmem).mono (by simp +contextual)

end Directive.Grammar

/-- Formulas have no literals but those in the directive that they were read from. -/
theorem Formula.writtenIn_of_ofDirective {registry : Registry} {directive : String}
    {formulas : List Formula} (h : ofDirective registry directive = .ok formulas) :
    ∀ formula ∈ formulas, formula.expr.WrittenIn directive.toList := by
  obtain ⟨trees, hderives⟩ := root_of_ofDirective h
  obtain ⟨_, rfl⟩ := (ofDirective_of_derives hderives).mp h
  intro formula hmem
  obtain ⟨tree, htree, rfl⟩ := List.mem_map.mp hmem
  exact (hderives.writtenIn tree htree).mono fun c hc => Text.mem_of_mem_trim hc

end TableCalc
