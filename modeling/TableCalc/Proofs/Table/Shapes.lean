import TableCalc.Proofs.Outcome
import TableCalc.Proofs.Table.Cells

/-!
Grids that are rectangles of at least one cell, as all values are. Such a grid is a single cell just
if it counts as one, and it always has numbers to calculate with.
-/

namespace TableCalc

/-- A grid of rows of one length, with at least one row and one column. -/
structure Grid.Rectangular (g : Grid) : Prop where
  rows : 0 < g.rowCount
  columns : 0 < g.columnCount
  width : ∀ row ∈ g.cells, row.length = g.columnCount

instance (g : Grid) : Decidable g.Rectangular :=
  decidable_of_iff
    (0 < g.rowCount ∧ 0 < g.columnCount ∧ ∀ row ∈ g.cells, row.length = g.columnCount)
    ⟨fun ⟨hrows, hcolumns, hwidth⟩ => ⟨hrows, hcolumns, hwidth⟩,
      fun ⟨hrows, hcolumns, hwidth⟩ => ⟨hrows, hcolumns, hwidth⟩⟩

namespace Grid

theorem isCell_iff {g : Grid} :
    g.isCell = true ↔ ¬ 1 < g.rowCount ∧ ¬ 1 < g.columnCount := by
  rw [isCell, shape, Shape.ofSize]
  by_cases hrows : 1 < g.rowCount
  · by_cases hcolumns : 1 < g.columnCount
    · simp [hrows, hcolumns]
    · simp [hrows, hcolumns]
  · by_cases hcolumns : 1 < g.columnCount
    · simp [hrows, hcolumns]
    · simp [hrows, hcolumns]

theorem rectangular_iff {g : Grid} :
    g.Rectangular ↔ g.cells ≠ [] ∧ ∃ n, 0 < n ∧ ∀ row ∈ g.cells, row.length = n := by
  constructor
  · intro h
    exact ⟨List.ne_nil_of_length_pos h.rows, g.columnCount, h.columns, h.width⟩
  · rintro ⟨hcells, n, hn, hwidth⟩
    obtain ⟨first, rest, hfirst⟩ := List.exists_cons_of_ne_nil hcells
    have hcolumns : g.columnCount = n := by
      have hlength := hwidth first (by simp [hfirst])
      simpa [columnCount, hfirst] using hlength
    refine ⟨List.length_pos_iff.mpr hcells, ?_, ?_⟩
    · rwa [hcolumns]
    · rwa [hcolumns]

namespace Rectangular

theorem single (text : String) : (Grid.single text).Rectangular :=
  ⟨Nat.one_pos, Nat.one_pos, by simp [Grid.single, columnCount]⟩

theorem ofDecimal (x : Decimal) : (Grid.ofDecimal x).Rectangular := single _

/-- However short the rows are and however few, their grid is filled up to a rectangle. -/
theorem ofRows (rows : List (List String)) : (Grid.ofRows rows).Rectangular := by
  rw [rectangular_iff]
  refine ⟨?_, max (widest rows) 1, Nat.le_max_right _ _, ?_⟩
  · cases rows with
    | nil => simp [Grid.ofRows]
    | cons => simp [Grid.ofRows]
  · intro row hrow
    obtain ⟨short, hshort, rfl⟩ := List.mem_map.mp hrow
    have hlength : short.length ≤ widest rows := by
      split at hshort
      · rw [List.mem_singleton.mp hshort]
        exact Nat.zero_le _
      · exact (widest_le_iff rows _).mp (Nat.le_refl _) short hshort
    rw [length_padRow]
    omega

theorem mapCells {ε : Type} {f : String → Except ε String} {input output : Grid}
    (hinput : input.Rectangular) (h : input.mapCells f = .ok output) : output.Rectangular := by
  obtain ⟨rows, hrows, h⟩ := bind_eq_ok_iff.mp h
  cases h
  rw [rectangular_iff] at hinput ⊢
  obtain ⟨hcells, n, hn, hwidth⟩ := hinput
  refine ⟨?_, n, hn, ?_⟩
  · rw [← List.length_pos_iff, ← (mapM_eq_ok_iff.mp hrows).length_eq]
    exact List.length_pos_iff.mpr hcells
  · intro row hrow
    obtain ⟨source, hsource, hrow⟩ := exists_of_mem_mapM hrows hrow
    rw [← (mapM_eq_ok_iff.mp hrow).length_eq]
    exact hwidth source hsource

variable {g : Grid}

/-- A rectangle that counts as a single cell is one. -/
theorem eq_single (h : g.Rectangular) (hcell : g.isCell = true) : g = Grid.single (g.text 0 0) := by
  have hshape := isCell_iff.mp hcell
  obtain ⟨cells⟩ := g
  obtain ⟨hrows, hcolumns, hwidth⟩ := h
  obtain ⟨row, rfl⟩ := List.length_eq_one_iff.mp
    (Nat.le_antisymm (Nat.not_lt.mp hshape.1) hrows)
  obtain ⟨text, rfl⟩ := List.length_eq_one_iff.mp
    (Nat.le_antisymm (Nat.not_lt.mp hshape.2) hcolumns)
  rfl

theorem numbers_ne_nil (h : g.Rectangular) : g.numbers ≠ [] := by
  obtain ⟨row, hrow⟩ := List.exists_mem_of_length_pos h.rows
  obtain ⟨text, htext⟩ := List.exists_mem_of_length_pos (h.width row hrow ▸ h.columns)
  have hmem : Cell.number text ∈ g.numbers :=
    List.mem_map_of_mem (List.mem_flatten.mpr ⟨row, hrow, htext⟩)
  exact List.ne_nil_of_mem hmem

end Rectangular

end Grid

end TableCalc
