import TableCalc.Table

/-!
What one write does to a table. A table is seen through its rows, a row below the last one being
empty. The sizes, the length of every row and the text of every cell after a write are told from
that view, so nothing later looks at how a write pads.
-/

namespace TableCalc

namespace Grid

theorem foldl_max_le_iff (lengths : List Nat) (start n : Nat) :
    lengths.foldl max start ≤ n ↔ start ≤ n ∧ ∀ length ∈ lengths, length ≤ n := by
  induction lengths generalizing start with
  | nil => simp
  | cons length rest ih =>
    rw [List.foldl_cons, ih, Nat.max_le]
    simp only [List.mem_cons, forall_eq_or_imp, and_assoc]

theorem widest_le_iff (rows : List (List String)) (n : Nat) :
    widest rows ≤ n ↔ ∀ row ∈ rows, row.length ≤ n := by
  rw [widest, foldl_max_le_iff]
  simp

theorem length_padRow (width : Nat) (row : List String) :
    (padRow width row).length = max row.length width := by
  simp only [padRow, List.rightpad, List.length_append, List.length_replicate]
  omega

/-- Padding adds cells that read as the missing ones did. -/
theorem getElem?_padRow (width : Nat) (row : List String) (column : Nat) :
    ((padRow width row)[column]?).getD "" = (row[column]?).getD "" := by
  rw [padRow, List.rightpad, List.getElem?_append]
  split
  · rfl
  · next h =>
    rw [List.getElem?_replicate, List.getElem?_eq_none (by omega)]
    split <;> rfl

end Grid

namespace Table

/-- The cells that a row has; none if there is no such row. -/
def row (t : Table) (i : Nat) : List String := t.rows[i]?.getD []

theorem text_eq (t : Table) (p : Position) : t.text p = ((t.row p.row)[p.column]?).getD "" := rfl

theorem row_eq_nil {t : Table} {i : Nat} (h : t.extent.rows ≤ i) : t.row i = [] := by
  rw [row, List.getElem?_eq_none h, Option.getD_none]

theorem columns_le_iff (t : Table) (n : Nat) :
    t.extent.columns ≤ n ↔ ∀ i, (t.row i).length ≤ n := by
  rw [show t.extent.columns = Grid.widest t.rows from rfl, Grid.widest_le_iff]
  constructor
  · intro h i
    rw [row]
    cases hrow : t.rows[i]? with
    | none => exact Nat.zero_le n
    | some cells => exact h cells (List.mem_of_getElem? hrow)
  · intro h cells member
    obtain ⟨i, hi⟩ := List.getElem?_of_mem member
    simpa [row, hi] using h i

theorem length_row_le (t : Table) (i : Nat) : (t.row i).length ≤ t.extent.columns :=
  (columns_le_iff t _).mp (Nat.le_refl _) i

/-- Cells outside the table read as blank. -/
theorem text_eq_empty {t : Table} {p : Position} (h : ¬ t.extent.Contains p) : t.text p = "" := by
  rw [text_eq]
  have hlength := t.length_row_le p.row
  by_cases hrow : p.row < t.extent.rows
  · have hcolumn : t.extent.columns ≤ p.column := by
      simpa [Extent.Contains, hrow] using h
    rw [List.getElem?_eq_none (by omega), Option.getD_none]
  · rw [row_eq_nil (by omega)]
    rfl

/-- A table is known by its number of rows, the length of each row and the text of each cell. -/
theorem eq_of_text_eq {t u : Table} (hrows : t.extent.rows = u.extent.rows)
    (hlength : ∀ i, (t.row i).length = (u.row i).length) (htext : ∀ p, t.text p = u.text p) :
    t = u := by
  have hrow (i : Nat) : t.row i = u.row i := by
    apply List.ext_getElem (hlength i)
    intro j ht hu
    have hcell := htext ⟨i, j⟩
    rwa [text_eq, text_eq, List.getElem?_eq_getElem ht, List.getElem?_eq_getElem hu] at hcell
  rw [Table.mk.injEq]
  apply List.ext_getElem hrows
  intro i ht hu
  have hi := hrow i
  rwa [row, row, List.getElem?_eq_getElem ht, List.getElem?_eq_getElem hu] at hi

theorem length_setInRow (column : Nat) (text : String) (cells : List String) :
    (setInRow column text cells).length = max cells.length (column + 1) := by
  rw [setInRow, List.length_set, Grid.length_padRow]

theorem getElem?_setInRow (column : Nat) (text : String) (cells : List String) (k : Nat) :
    ((setInRow column text cells)[k]?).getD "" =
      if k = column then text else (cells[k]?).getD "" := by
  rw [setInRow, List.getElem?_set]
  by_cases h : column = k
  · subst h
    rw [if_pos rfl, if_pos rfl, if_pos (by rw [Grid.length_padRow]; omega), Option.getD_some]
  · rw [if_neg h, if_neg (Ne.symm h), Grid.getElem?_padRow]

section Write

variable {t : Table} {p : Position} (h : t.extent.Contains p) (text : String)

include h

/-- A write inside the table changes one row. -/
theorem row_set (i : Nat) :
    (t.set p text).row i = if i = p.row then setInRow p.column text (t.row i) else t.row i := by
  have hrow : p.row < t.rows.length := h.1
  have hpad : t.rows.rightpad (p.row + 1) [] = t.rows := by
    rw [List.rightpad, Nat.sub_eq_zero_of_le hrow, List.replicate_zero, List.append_nil]
  rw [set, hpad, row, List.getElem?_modify, row]
  by_cases hi : i = p.row
  · subst hi
    simp [List.getElem?_eq_getElem hrow]
  · simp [hi, Ne.symm hi]

theorem rows_set : (t.set p text).extent.rows = t.extent.rows := by
  have hrow : p.row < t.rows.length := h.1
  simp only [extent, set, List.length_modify, List.rightpad, List.length_append,
    List.length_replicate]
  omega

theorem length_row_set (i : Nat) :
    ((t.set p text).row i).length =
      if i = p.row then max (t.row i).length (p.column + 1) else (t.row i).length := by
  rw [row_set h text]
  split
  · rw [length_setInRow]
  · rfl

/-- A write inside the table changes no size: the row that is padded stays within the widest one. -/
theorem extent_set : (t.set p text).extent = t.extent := by
  have hcolumn : p.column < t.extent.columns := h.2
  have hcolumns : (t.set p text).extent.columns = t.extent.columns := by
    apply Nat.le_antisymm
    · rw [columns_le_iff]
      intro i
      have hlength := t.length_row_le i
      rw [length_row_set h text]
      split <;> omega
    · rw [columns_le_iff]
      intro i
      have hlength := (t.set p text).length_row_le i
      rw [length_row_set h text] at hlength
      split at hlength <;> omega
  rw [Extent.mk.injEq]
  exact ⟨rows_set h text, hcolumns⟩

/-- A cell that is written reads as the text, and all other cells read as before. -/
theorem text_set (q : Position) : (t.set p text).text q = if q = p then text else t.text q := by
  rw [text_eq, row_set h text, text_eq]
  have hq : q = p ↔ q.row = p.row ∧ q.column = p.column := by
    rw [Position.mk.injEq]
  by_cases hrow : q.row = p.row
  · rw [if_pos hrow, getElem?_setInRow]
    simp only [hq, hrow, true_and]
  · rw [if_neg hrow, if_neg (fun heq => hrow (hq.mp heq).1)]

end Write

end Table

end TableCalc
