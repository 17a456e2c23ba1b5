import TableCalc.Proofs.Engine.Broadcast
import TableCalc.Proofs.Engine.Failure

/-!
Why evaluation fails. All values are rectangles, on which the functions that are always there never
fail, and what is called has been found when the directives were read. So only addresses, ranges in
wrong places and divisors that are zero are left as reasons.
-/

namespace TableCalc

/-- An operation that is refused asks for cells in the wrong places, or its divisor is a single cell
that counts as zero. -/
theorem Operation.Refuses.cases {op : Operation} {left right : Grid} {error : FormulaError}
    (h : op.Refuses left right error) :
    error.IsOfCells ∨
      error = .divisionByZero ∧ op = .divide ∧ right.isCell = true ∧ right.scalar = 0 := by
  cases h with
  | ranges | divisor => exact .inl trivial
  | zero hzero => exact .inr ⟨rfl, rfl, rfl, Decimal.value_eq_zero_iff.mp hzero⟩

namespace Engine

variable {engine : Engine} {table : Table} {p : Position}

/-- A quotient whose divisor has a single cell that counts as zero. -/
def DividesByZero (engine : Engine) (table : Table) (p : Position) (node : Expr) : Prop :=
  ∃ left right l r, node = .algebraic .divide left right ∧ engine.eval table p left = .ok l ∧
    engine.eval table p right = .ok r ∧ r.isCell = true ∧ r.scalar = 0

section Total

variable (htotal : engine.functions.Total)

include htotal

/-- Every value is a rectangle of at least one row and one column. -/
theorem eval_rectangular {expr : Expr} {value : Grid}
    (h : engine.eval table p expr = .ok value) : value.Rectangular := by
  induction expr generalizing value with
  | literal text =>
    cases h
    exact .single text
  | reference reference =>
    obtain ⟨r, _, h⟩ := bind_eq_ok_iff.mp h
    cases h
    exact .ofRows _
  | algebraic op left right ihleft ihright =>
    obtain ⟨l, hl, h⟩ := bind_eq_ok_iff.mp h
    obtain ⟨r, hr, h⟩ := bind_eq_ok_iff.mp h
    rw [Operation.apply] at h
    split at h
    · cases h
    · split at h
      · cases h
      · split at h
        · exact (ihright hr).mapCells h
        · exact (ihleft hl).mapCells h
  | aggregate name argument ih =>
    obtain ⟨input, hinput, h⟩ := bind_eq_ok_iff.mp h
    exact htotal.rectangular_of_call (ih hinput) h
  | conditional left comparator right thenBranch elseBranch _ _ ihthen ihelse =>
    obtain ⟨_, _, h⟩ := bind_eq_ok_iff.mp h
    obtain ⟨_, _, h⟩ := bind_eq_ok_iff.mp h
    split at h
    · cases h
    · split at h
      · exact ihthen h
      · exact ihelse h

/-- Where functions do not fail and all of them are known, an expression fails of itself because of
the cells that it asks for, or because it divides by zero. -/
theorem Raises.cases {expr : Expr} {error : FormulaError} (h : engine.Raises table p expr error)
    (hcallable : expr.Callable engine.functions) :
    error.IsOfCells ∨ error = .divisionByZero ∧ engine.DividesByZero table p expr := by
  cases h with
  | reference h => exact .inl (Reference.isOfCells_of_resolve h)
  | @algebraic op left right l r _ hleft hright h =>
    have hrefuses := (Operation.apply_eq_error_iff (eval_rectangular htotal hleft)
      (eval_rectangular htotal hright)).mp h
    rcases hrefuses.cases with h | ⟨rfl, rfl, hcell⟩
    · exact .inl h
    · exact .inr ⟨rfl, left, right, l, r, rfl, hleft, hright, hcell⟩
  | @aggregate name argument input _ hargument h =>
    obtain ⟨f, hf⟩ := hcallable name List.mem_cons_self
    have hinput := eval_rectangular htotal hargument
    obtain ⟨output, houtput, _⟩ :
        ∃ output, engine.functions.call engine.quotientDigits name input = .ok output ∧
          output.Rectangular := htotal.call hf hinput
    rw [houtput] at h
    cases h
  | conditional => exact .inl trivial

end Total

/-- Where functions do not fail and all of them are known, a run fails because of the cells that it
asks for, or because it comes to a division by zero. -/
theorem apply_eq_error_of_total (htotal : engine.functions.Total) {formulas : List Formula}
    (hcallable : ∀ formula ∈ formulas, formula.expr.Callable engine.functions) {before : Table}
    {error : FormulaError} (h : engine.apply formulas before = .error error) :
    error.IsOfCells ∨ error = .divisionByZero ∧ ∃ formula now p node,
      engine.ComesTo formulas before formula now p ∧
        engine.Evaluates now p formula.expr node ∧ engine.DividesByZero now p node := by
  rcases apply_eq_error h with h | ⟨formula, hformula, now, p, hcomes, h⟩
  · exact .inl h
  · obtain ⟨node, hnode, hraises⟩ := eval_eq_error_iff.mp h
    rcases hraises.cases htotal (hnode.callable (hcallable formula hformula)) with h | ⟨rfl, hzero⟩
    · exact .inl h
    · exact .inr ⟨rfl, formula, now, p, node, hcomes, hnode, hzero⟩

/-- With the functions that are always there and any number of digits for quotients, only errors of
the user's making exist. Every value is a rectangle, on which none of the functions fails; hence no
evaluation ends in an internal error, directives that are read meet no unknown function later, and
division by zero is the fault of a quotient that is evaluated, whose divisor is a single cell that
counts as zero. -/
theorem evaluate_standard_eq_error (digits : Nat) :
    let engine : Engine := ⟨.standard, digits⟩
    (∀ table p expr value, engine.eval table p expr = .ok value → value.Rectangular) ∧
    (∀ f ∈ [Aggregate.sum, Aggregate.mean, Aggregate.median], ∀ catalog (input : Grid),
      input.Rectangular → ∃ output, f.call ⟨digits, catalog⟩ input = .ok output ∧ output.Rectangular) ∧
    ∀ directives table error, engine.evaluate directives table = .error error →
      error.code ≠ "INTERNAL" ∧
      (∀ formulas, Formula.ofDirectives .standard directives = .ok formulas →
        error.code ≠ "PARSE_ERROR" ∧ error.code ≠ "UNKNOWN_FUNCTION") ∧
      (error.code = "DIV_ZERO" →
        ∃ formulas, Formula.ofDirectives .standard directives = .ok formulas ∧
          ∃ formula now p node, engine.ComesTo formulas table formula now p ∧
            engine.Evaluates now p formula.expr node ∧ engine.DividesByZero now p node) := by
  intro engine
  have htotal : engine.functions.Total := Registry.total_standard
  refine ⟨?values, ?functions, ?errors⟩
  case values =>
    intro table p expr value h
    exact eval_rectangular htotal h
  case functions =>
    simp only [List.forall_mem_cons, List.not_mem_nil, false_implies, implies_true, and_true]
    exact ⟨fun _ => Aggregate.total_sum _, fun _ => Aggregate.total_mean _,
      fun _ => Aggregate.total_median _⟩
  case errors =>
    intro directives table error h
    rcases bind_eq_error_iff.mp h with hread | ⟨formulas, hread, h⟩
    · have hread : Formula.ofDirectives .standard directives = .error error := hread
      rcases Formula.ofDirectives_eq_error hread with hcode | hcode
      · simp [hcode, hread]
      · simp [hcode, hread]
    · have hread : Formula.ofDirectives .standard directives = .ok formulas := hread
      have hcallable := Formula.callable_of_ofDirectives hread
      rcases apply_eq_error_of_total htotal hcallable h with hcells | ⟨rfl, hzero⟩
      · obtain ⟨hinternal, hparse, hunknown, hzero⟩ := hcells.code_ne
        exact ⟨hinternal, fun _ _ => ⟨hparse, hunknown⟩, fun hcode => absurd hcode hzero⟩
      · simp only [FormulaError.code]
        exact ⟨by decide, fun _ _ => ⟨by decide, by decide⟩, fun _ => ⟨formulas, hread, hzero⟩⟩

/-- In the branch that is chosen, a range is divided by a single cell that is a difference of zeros.
The other branch and the condition call functions, and no digits are asked for. -/
theorem evaluate_standard_eq_error_branch :
    let engine : Engine := ⟨.standard, 0⟩
    let table : Table := ⟨[["A", "B"], ["1", "0"], ["2"]]⟩
    let directives := ["<!-- TBLFM: @2$1=mean(@2..@3)" ++
      "::@3$2=if(@2$1>sum(@1$1..@1$2),(@2$1..@3$1/(0-@2$2)),mean(@1)) -->"]
    engine.evaluate directives table = .error .divisionByZero ∧
      ∃ formulas, Formula.ofDirectives .standard directives = .ok formulas ∧
        ∃ formula now p node, engine.ComesTo formulas table formula now p ∧
          engine.Evaluates now p formula.expr node ∧ engine.DividesByZero now p node := by
  intro engine table directives
  have heval : engine.evaluate directives table = .error .divisionByZero := by decide +kernel
  obtain ⟨_, _, herror⟩ := evaluate_standard_eq_error 0
  exact ⟨heval, (herror directives table .divisionByZero heval).2.2 rfl⟩

end Engine

end TableCalc
