import TableCalc.Directive.Parse
import TableCalc.Proofs.Directive.Derivation

/-!
The functions that formulas call. A directive is only read if every name in it is the one that its
function has, so evaluation, which looks names up in any case of letters, finds them all.
-/

namespace TableCalc

/-- The names of the functions that an expression calls, with those of both branches of a
condition. -/
def Expr.calls : Expr → List String
  | .literal _ => []
  | .reference _ => []
  | .algebraic _ left right => left.calls ++ right.calls
  | .aggregate name argument => name :: argument.calls
  | .conditional left _ right thenBranch elseBranch =>
      left.calls ++ right.calls ++ (thenBranch.calls ++ elseBranch.calls)

/-- An expression that calls no functions but those of a registry. -/
def Expr.Callable (registry : Registry) (expr : Expr) : Prop :=
  ∀ name ∈ expr.calls, ∃ f, registry.find? name = some f

namespace Directive

variable {registry : Registry}

mutual

theorem OperandTree.Admitted.callable {tree : OperandTree} (h : tree.Admitted registry) :
    tree.meaning.Callable registry := by
  cases tree with
  | number t | text t => simp [OperandTree.meaning, Expr.Callable, Expr.calls]
  | reference r => simp [OperandTree.meaning, Expr.Callable, Expr.calls]
  | group head tail =>
    rw [OperandTree.Admitted] at h
    have halgebraic {op : Operation} {left right : Expr} (hleft : left.Callable registry)
        (hright : right.Callable registry) : (Expr.algebraic op left right).Callable registry :=
      List.forall_mem_append.mpr ⟨hleft, hright⟩
    exact Expr.climb_inherits halgebraic (fun _ hsum => nomatch hsum) h.1.callable h.2.callable
  | call name argument =>
    rw [OperandTree.Admitted] at h
    obtain ⟨⟨f, hf, _⟩, hargument⟩ := h
    rw [OperandTree.meaning, Expr.Callable, Expr.calls, List.forall_mem_cons]
    exact ⟨⟨f, hf⟩, hargument.callable⟩
  | conditional left comparator right thenBranch elseBranch =>
    rw [OperandTree.Admitted] at h
    obtain ⟨⟨_, hleft⟩, ⟨_, hright⟩, hthen, helse⟩ := h
    simp only [OperandTree.meaning, Expr.Callable, Expr.calls, List.forall_mem_append]
    exact ⟨⟨hleft.callable, hright.callable⟩, hthen.callable, helse.callable⟩

theorem ChainTree.Admitted.callable {tree : ChainTree} (h : tree.Admitted registry) :
    ∀ operation ∈ tree.meaning, operation.2.Callable registry := by
  cases tree with
  | done => simp [ChainTree.meaning]
  | link op operand tail =>
    rw [ChainTree.Admitted] at h
    rw [ChainTree.meaning, List.forall_mem_cons]
    exact ⟨h.1.callable, h.2.callable⟩

end

end Directive

/-- Formulas that are read call no functions but those of the registry. -/
theorem Formula.callable_of_ofDirectives {registry : Registry} {directives : List String}
    {formulas : List Formula} (h : ofDirectives registry directives = .ok formulas) :
    ∀ formula ∈ formulas, formula.expr.Callable registry := by
  intro formula hformula
  obtain ⟨directive, _, list, hread, hformula⟩ := exists_of_mem_ofDirectives h hformula
  obtain ⟨trees, hderives⟩ := root_of_ofDirective hread
  obtain ⟨hadmitted, rfl⟩ := (ofDirective_of_derives hderives).mp hread
  obtain ⟨tree, htree, rfl⟩ := List.mem_map.mp hformula
  exact (hadmitted tree htree).operand.callable

/-- What is wrong with a directive that is not read is how it is written, or the name of a
function. -/
theorem Formula.ofDirectives_eq_error {registry : Registry} {directives : List String}
    {error : FormulaError} (h : ofDirectives registry directives = .error error) :
    error.code = "PARSE_ERROR" ∨ error.code = "UNKNOWN_FUNCTION" := by
  rcases bind_eq_error_iff.mp h with h | ⟨_, _, h⟩
  · obtain ⟨directive, _, hdirective⟩ := exists_of_mapM_eq_error h
    rw [ofDirective] at hdirective
    split at hdirective
    · cases hdirective
      exact .inl rfl
    · next trees _ =>
      cases hfault : trees.mapM (Directive.FormulaTree.toFormula registry.isExactName) with
      | ok formulas =>
        simp only [hfault] at hdirective
        cases hdirective
      | error fault =>
        simp only [hfault] at hdirective
        cases hdirective
        cases fault with
        | unknownFunction name => exact .inr rfl
        | _ => exact .inl rfl
  · cases h

end TableCalc
