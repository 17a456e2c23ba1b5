import TableCalc.Proofs.Engine.Texts

/-!
The working precision of a whole evaluation. Between two operations numbers are texts of cells, which
are read with the working precision again; within a function they are not rounded to it, so a total may
carry its one digit more from cell to cell.
-/

namespace TableCalc.Engine

/-- The texts that the value of an expression is made of: those of the cells of the table, which are
blank outside it, the literals of the expression, and those of numbers that calculations lead to. -/
def IsSource (table : Table) (expr : Expr) (text : String) : Prop :=
  (∃ p, text = table.text p) ∨ text ∈ expr.literals ∨ ∃ x, Calculated x ∧ text = x.canonical

theorem isSource_blank (table : Table) (expr : Expr) : IsSource table expr "" := by
  refine .inl ⟨⟨table.rows.length, 0⟩, ?_⟩
  rw [Table.text, List.getElem?_eq_none le_rfl]
  rfl

/-- A value is made of such texts only. -/
theorem eval_isSource {quotientDigits : Nat} {table : Table} {p : Position} {expr : Expr}
    {value : Grid} (h : eval ⟨.standard, quotientDigits⟩ table p expr = .ok value) :
    ∀ row ∈ value.cells, ∀ text ∈ row, IsSource table expr text := by
  have hblank := isSource_blank table expr
  have hcalculated : ∀ x, Calculated x → IsSource table expr x.canonical :=
    fun x hx => .inr (.inr ⟨x, hx, rfl⟩)
  have hfunctions : Registry.standard.Keeps (IsSource table expr) :=
    Registry.keeps_of_calculates Registry.calculates_standard hcalculated
  have htable : Document.AllCells (IsSource table expr) table.rows :=
    (Document.AllCells.iff_text hblank).mpr fun q => .inl ⟨q, rfl⟩
  exact eval_cells hblank hcalculated hfunctions htable (fun _ htext => .inr (.inl htext)) h

/-- The working precision holds everywhere. No cell counts as a number of more than fifty significant
digits, and no calculation on the numbers of cells leads to more than fifty-one, however long it is.
Such calculations are the totals that the functions add up, cell by cell, the results of the functions
and of operations on cells, and all that expressions write other than the texts of cells and
literals. -/
theorem working_precision :
    (∀ text, (Cell.number text).precision ≤ 50) ∧
    (∀ x, Calculated x → x.precision ≤ 51) ∧
    (∀ (input : Grid) (count : Nat), Calculated (Decimal.total (input.numbers.take count))) ∧
    (∀ f ∈ [Aggregate.sum, Aggregate.mean, Aggregate.median], ∀ context input output,
      f.call context input = .ok output → ∃ x, Calculated x ∧ output = .ofDecimal x) ∧
    (∀ (op : Operation) quotientDigits a b z,
      op.combine quotientDigits (Cell.number a) (Cell.number b) = .ok z → Calculated z) ∧
    (∀ quotientDigits table p expr value,
      eval ⟨.standard, quotientDigits⟩ table p expr = .ok value →
        ∀ row ∈ value.cells, ∀ text ∈ row, IsSource table expr text) := by
  refine ⟨Cell.precision_number_le, fun _ => Calculated.precision_le, ?totals, ?functions,
    ?operations, fun _ _ _ _ _ => eval_isSource⟩
  case totals =>
    intro input count
    exact .total fun x hx => .of_mem_numbers (List.mem_of_mem_take hx)
  case functions =>
    simp only [List.forall_mem_cons, List.not_mem_nil, false_implies, implies_true, and_true]
    exact ⟨Aggregate.calculates_sum, Aggregate.calculates_mean, Aggregate.calculates_median⟩
  case operations =>
    intro op quotientDigits a b z h
    exact .combine (.number a) (.number b) h

/-- A difference of fifty-one digits, which further differences and quotients keep to, as the number of
an expression and as a sum. -/
theorem working_precision_difference :
    let x := Cell.number "3e50" - Cell.number "4"
    x.precision = 51 ∧ (x - Cell.number "1e49").precision ≤ 51 ∧
      (∃ z, Decimal.divideTo 60 x (.ofInt 7) = .ok z ∧ z.precision ≤ 51) ∧
      (∃ y, Calculated y ∧ Aggregate.sum.call (Registry.standard.context 20) ⟨[["3e50"], ["-4"]]⟩ =
        .ok (.ofDecimal y)) ∧
      IsSource ⟨[]⟩ (.algebraic .subtract (.literal "3e50") (.literal "4"))
        "299999999999999999999999999999999999999999999999996" := by
  intro x
  have hx : x = .ofInt 299999999999999999999999999999999999999999999999996 := by
    change Cell.number "3e50" - Cell.number "4" = _
    decide +kernel
  obtain ⟨-, hprecision, -, hfunctions, hoperations, hvalues⟩ := working_precision
  have hcalculated : Calculated x := hoperations .subtract 20 "3e50" "4" _ rfl
  refine ⟨?precision, ?difference, ?quotient, ?sum, ?value⟩
  case precision =>
    rw [hx]
    decide +kernel
  case difference => exact hprecision _ (hcalculated.sub (.number "1e49"))
  case quotient =>
    have hseven : Decimal.ofInt 7 ≠ 0 := Decimal.ofInt_ne_zero (by decide)
    obtain ⟨z, hz⟩ := Decimal.exists_divideTo hseven 60 x
    exact ⟨z, hz, hprecision z (hcalculated.divideTo hz)⟩
  case sum =>
    have hsum : Aggregate.sum.call (Registry.standard.context 20) ⟨[["3e50"], ["-4"]]⟩ =
      .ok (Aggregate.sumOf ⟨[["3e50"], ["-4"]]⟩) := rfl
    obtain ⟨y, hy, heq⟩ := hfunctions Aggregate.sum (by simp) _ _ _ hsum
    exact ⟨y, hy, hsum.trans (congrArg Except.ok heq)⟩
  case value =>
    refine hvalues 20 ⟨[]⟩ ⟨0, 0⟩ _ (.single _) ?_ _ List.mem_cons_self _ List.mem_cons_self
    decide +kernel

end TableCalc.Engine
