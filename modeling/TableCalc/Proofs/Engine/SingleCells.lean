import TableCalc.Proofs.Engine.Frame

/-!
A formula with many target cells is a list of formulas with one target cell each. The cells are
those of the table at the start: no write changes the size of the table, so the same addresses mean
the same cells later.
-/

namespace TableCalc

/-- The formula with a single cell for its target. -/
def Formula.onCell (formula : Formula) (p : Position) : Formula :=
  { formula with target := p.toReference }

namespace Engine

variable {engine : Engine} {formula : Formula}

theorem applyFormula_onCell {table : Table} {p : Position} (hsize : table.extent.Countable)
    (hp : table.extent.Contains p) :
    engine.applyFormula table (formula.onCell p) = engine.writeCell formula table p := by
  rw [applyFormula, Formula.onCell, Position.targetCells_toReference hsize hp]
  exact bind_pure (engine.writeCell formula table p)

theorem writeCells_eq_apply {cells : List Position} {table : Table}
    (hsize : table.extent.Countable) (hcells : ∀ p ∈ cells, table.extent.Contains p) :
    cells.foldlM (engine.writeCell formula) table =
      engine.apply (cells.map formula.onCell) table := by
  rw [apply]
  induction cells generalizing table with
  | nil => rfl
  | cons p rest ih =>
    have hp := hcells p List.mem_cons_self
    rw [List.map_cons, List.foldlM_cons, List.foldlM_cons, applyFormula_onCell hsize hp]
    cases hstep : engine.writeCell formula table p with
    | error error => rfl
    | ok next =>
      have hextent := writeCell_extent hp hstep
      refine ih (by rwa [hextent]) ?_
      intro q hq
      rw [hextent]
      exact hcells q (List.mem_cons_of_mem p hq)

/-- Applying a formula is applying, cell by cell in the order of its target, the formulas that
compute and show the same for that cell alone: with the same table, or with the same error. Later
cells see what was written to earlier ones in both. Sizes beyond signed words of 64 bits, which no
table in memory has, are left out because rows and columns there have no number. -/
theorem apply_eq_apply_onCell {table : Table} {cells : List Position}
    (hsize : table.extent.Countable)
    (hcells : formula.target.targetCells table.extent = .ok cells) :
    engine.apply [formula] table = engine.apply (cells.map formula.onCell) table := by
  have hcontains : ∀ p ∈ cells, table.extent.Contains p :=
    fun p hp => Reference.contains_of_mem_targetCells hcells hp
  rw [apply_singleton, applyFormula, hcells]
  exact writeCells_eq_apply hsize hcontains

/-- Two cells, of which the second reads what was written to the first. -/
theorem apply_eq_apply_onCell_sliding :
    let table : Table := ⟨[["A"], ["1"], [""], [""]]⟩
    let formula : Formula :=
      { source := "@3$1..@4$1=(@-1+1)"
        target := .range ⟨some (.index 3), some (.index 1)⟩ ⟨some (.index 4), some (.index 1)⟩
        expr := .algebraic .add (.reference (.cell ⟨some (.offset (-1)), none⟩)) (.literal "1")
        display := none }
    table.extent.Countable ∧
    formula.target.targetCells table.extent = .ok [⟨2, 0⟩, ⟨3, 0⟩] ∧
    standard.apply [formula] table =
      standard.apply (List.map formula.onCell [⟨2, 0⟩, ⟨3, 0⟩]) table := by
  intro table formula
  have hsize : table.extent.Countable := ⟨by decide, by decide⟩
  have hcells : formula.target.targetCells table.extent = .ok [⟨2, 0⟩, ⟨3, 0⟩] := by
    decide +kernel
  exact ⟨hsize, hcells, apply_eq_apply_onCell hsize hcells⟩

end Engine

end TableCalc
