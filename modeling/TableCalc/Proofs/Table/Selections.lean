import TableCalc.Proofs.Address.Exact
import TableCalc.Proofs.Table.Shapes

/-!
What source references read. A reference that is resolved means a rectangle inside the table, and
the grid that is selected has its size and, row by row, the texts of its cells.
-/

namespace TableCalc

/-- Rows that are equally long already are the rows of their grid. -/
theorem Grid.ofRows_eq {rows : List (List String)} {n : Nat} (hrows : rows ≠ []) (hn : 0 < n)
    (hwidth : ∀ row ∈ rows, row.length = n) : Grid.ofRows rows = ⟨rows⟩ := by
  have hwidest : widest rows ≤ n := by
    rw [widest_le_iff]
    intro row hrow
    exact Nat.le_of_eq (hwidth row hrow)
  have hpad : ∀ row ∈ rows, padRow (max (widest rows) 1) row = row := by
    intro row hrow
    have hlength := hwidth row hrow
    have hnone : max (widest rows) 1 - row.length = 0 := by omega
    rw [padRow, List.rightpad, hnone, List.replicate_zero, List.append_nil]
  rw [ofRows, if_neg (by simpa using hrows), List.map_congr_left hpad, List.map_id']

namespace Table

variable {t : Table} {r : Rectangle} (hrows : r.top ≤ r.bottom) (hcolumns : r.left ≤ r.right)

include hrows hcolumns

theorem cells_select :
    (t.select r).cells = (upTo r.top r.bottom).map fun row =>
      (upTo r.left r.right).map fun column => t.text ⟨row, column⟩ := by
  have hlength (low high : Nat) : (upTo low high).length = high + 1 - low := List.length_range'
  have hsome : (upTo r.top r.bottom) ≠ [] := by
    apply List.ne_nil_of_length_pos
    rw [hlength]
    omega
  have hwidth : 0 < r.right + 1 - r.left := by omega
  rw [select, Grid.ofRows_eq (by simpa using hsome) hwidth]
  intro row hrow
  obtain ⟨_, _, rfl⟩ := List.mem_map.mp hrow
  rw [List.length_map, hlength]

theorem rowCount_select : (t.select r).rowCount = r.bottom + 1 - r.top := by
  rw [Grid.rowCount, cells_select hrows hcolumns, List.length_map, upTo, List.length_range']

theorem columnCount_select : (t.select r).columnCount = r.right + 1 - r.left := by
  have hfirst : upTo r.top r.bottom = r.top :: List.range' (r.top + 1) (r.bottom - r.top) := by
    rw [upTo, Nat.succ_sub hrows, List.range'_succ]
  rw [Grid.columnCount, cells_select hrows hcolumns, hfirst, List.map_cons, List.head?_cons,
    Option.getD_some, List.length_map, upTo, List.length_range']

/-- The texts of a selection, row by row, are those of the positions in their order. -/
theorem flatten_cells_select : (t.select r).cells.flatten = r.positions.map t.text := by
  rw [cells_select hrows hcolumns, Rectangle.positions, List.map_flatMap, List.flatMap_def]
  simp only [List.map_map, Function.comp_def]

end Table

/-- Source references read exactly the cells that they name. For a cell that is computed inside a
table whose sizes fit signed words, an address is accepted just if the exact position that it names
is inside the table, and means this position; but a number beyond those words is accepted as the
last row or column where the table has as many as they count. A reference is resolved just to the
rectangle between the corners that it names. This is inside the table, and what is selected by it
has as many rows and columns and holds, row by row, the texts at its positions in their order, blank
where a row is too short. -/
theorem Reference.reads_named_cells {extent : Extent} {context : Position}
    (hsize : extent.Countable) (hcontext : extent.Contains context) :
    (∀ (axis : Axis) (address : Address) (n : Nat),
      address.resolve axis context extent = .ok n ↔
        (address.exact axis (context.on axis) (extent.on axis) = n ∧ n < extent.on axis) ∨
          address.Overflows (extent.on axis) ∧ n + 1 = extent.on axis) ∧
    ∀ (reference : Reference) (r : Rectangle),
      (reference.resolve context extent = .ok r ↔ reference.Names context extent r) ∧
      (reference.resolve context extent = .ok r →
        (r.top ≤ r.bottom ∧ r.bottom < extent.rows) ∧
        (r.left ≤ r.right ∧ r.right < extent.columns) ∧
        ∀ table : Table,
          (table.select r).Rectangular ∧
          (table.select r).rowCount = r.bottom + 1 - r.top ∧
          (table.select r).columnCount = r.right + 1 - r.left ∧
          (table.select r).cells.flatten = r.positions.map table.text ∧
          (∀ p cell, (table.row p.row)[p.column]? = some cell → table.text p = cell) ∧
          ∀ p, (table.row p.row).length ≤ p.column → table.text p = "") := by
  refine ⟨fun axis address n => Address.resolve_eq_ok_iff_exact (hsize.on axis), ?_⟩
  intro reference r
  refine ⟨resolve_eq_ok_iff, fun h => ?_⟩
  have hinside := contains_of_resolve hcontext h
  have hnames := resolve_eq_ok_iff.mp h
  refine ⟨⟨hnames.rows, hinside.1⟩, ⟨hnames.columns, hinside.2⟩, fun table => ?_⟩
  refine ⟨.ofRows _, Table.rowCount_select hnames.rows hnames.columns,
    Table.columnCount_select hnames.rows hnames.columns,
    Table.flatten_cells_select hnames.rows hnames.columns, fun p cell hcell => ?_,
    fun p hshort => ?_⟩
  · rw [table.text_eq, hcell, Option.getD_some]
  · rw [table.text_eq, List.getElem?_eq_none hshort, Option.getD_none]

/-- A range from the first row below the header to the cell that is being computed. Its first row is
short. -/
theorem Reference.reads_named_cells_ragged :
    let table : Table := ⟨[["A", "B"], ["1"], ["2", "3"]]⟩
    let reference : Reference := .range ⟨some .anchor, some .first⟩ ⟨some (.offset 0), none⟩
    table.extent.Countable ∧ table.extent.Contains ⟨2, 1⟩ ∧
    reference.resolve ⟨2, 1⟩ table.extent = .ok ⟨1, 0, 2, 1⟩ ∧
    (table.select ⟨1, 0, 2, 1⟩).rowCount = 2 ∧ (table.select ⟨1, 0, 2, 1⟩).columnCount = 2 ∧
    (table.select ⟨1, 0, 2, 1⟩).cells.flatten = ["1", "", "2", "3"] := by
  intro table reference
  have hsize : table.extent.Countable := ⟨by decide, by decide⟩
  have hcontext : table.extent.Contains ⟨2, 1⟩ := ⟨by decide, by decide⟩
  have hresolve : reference.resolve ⟨2, 1⟩ table.extent = .ok ⟨1, 0, 2, 1⟩ := rfl
  obtain ⟨_, hreads⟩ := reads_named_cells hsize hcontext
  obtain ⟨_, _, hselect⟩ := (hreads reference ⟨1, 0, 2, 1⟩).2 hresolve
  obtain ⟨_, hrows, hcolumns, hcells, _⟩ := hselect table
  exact ⟨hsize, hcontext, hresolve, hrows, hcolumns, hcells⟩

end TableCalc
