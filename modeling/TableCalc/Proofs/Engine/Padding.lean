import TableCalc.Proofs.Engine.Dependence

/-!
Tables with blank cells at the end of short rows. Such cells read as the missing ones do, and a
write fills a row up anyway, so a table that is padded to its own width is evaluated as it was
before: with the same error, or with the same cells.
-/

namespace TableCalc

namespace Table

/-- The table with blank cells at the end of every row that is shorter than the given width. -/
def padTo (width : Nat) (t : Table) : Table := ⟨t.rows.map (Grid.padRow width)⟩

variable {t : Table} {width : Nat}

theorem rows_padTo (width : Nat) (t : Table) : (t.padTo width).extent.rows = t.extent.rows :=
  List.length_map _

theorem row_padTo {i : Nat} (hi : i < t.extent.rows) :
    (t.padTo width).row i = Grid.padRow width (t.row i) := by
  have hrow : i < t.rows.length := hi
  simp [row, padTo, List.getElem?_eq_getElem hrow]

theorem length_row_padTo {i : Nat} (hi : i < t.extent.rows) :
    ((t.padTo width).row i).length = max (t.row i).length width := by
  rw [row_padTo hi, Grid.length_padRow]

theorem text_padTo (width : Nat) (t : Table) (p : Position) :
    (t.padTo width).text p = t.text p := by
  by_cases hrow : p.row < t.extent.rows
  · rw [text_eq, row_padTo hrow, Grid.getElem?_padRow, text_eq]
  · have hout {u : Table} (hu : u.extent.rows = t.extent.rows) : ¬ u.extent.Contains p :=
      fun h => hrow (hu ▸ h.1)
    rw [text_eq_empty (hout (rows_padTo width t)), text_eq_empty (hout rfl)]

/-- A table that has a row becomes as wide as it is padded, if it was not wider. -/
theorem extent_padTo (hrows : 0 < t.extent.rows) (hwidth : t.extent.columns ≤ width) :
    (t.padTo width).extent = ⟨t.extent.rows, width⟩ := by
  rw [Extent.mk.injEq]
  refine ⟨rows_padTo width t, Nat.le_antisymm ?_ ?_⟩
  · rw [columns_le_iff]
    intro i
    by_cases hi : i < t.extent.rows
    · rw [length_row_padTo hi]
      exact Nat.max_le.mpr ⟨Nat.le_trans (t.length_row_le i) hwidth, Nat.le_refl _⟩
    · rw [row_eq_nil (by rw [rows_padTo]; omega)]
      exact Nat.zero_le _
  · have hfirst := (t.padTo width).length_row_le 0
    rw [length_row_padTo hrows] at hfirst
    exact Nat.le_trans (Nat.le_max_right _ _) hfirst

/-- Padding a table to its own width does not change its size. -/
theorem extent_padTo_columns (t : Table) : (t.padTo t.extent.columns).extent = t.extent := by
  by_cases hrows : 0 < t.extent.rows
  · exact extent_padTo hrows (Nat.le_refl _)
  · have hnil : t.rows = [] := List.length_eq_zero_iff.mp (Nat.eq_zero_of_not_pos hrows)
    simp [padTo, extent, hnil]

/-- A table may be padded before a write or after it. -/
theorem set_padTo {p : Position} (hp : t.extent.Contains p) (hwidth : t.extent.columns ≤ width)
    (text : String) : (t.padTo width).set p text = (t.set p text).padTo width := by
  have hrows : 0 < t.extent.rows := Nat.zero_lt_of_lt hp.1
  have hpadded : (t.padTo width).extent.Contains p := by
    rw [extent_padTo hrows hwidth]
    exact ⟨hp.1, Nat.lt_of_lt_of_le hp.2 hwidth⟩
  apply eq_of_text_eq
  · rw [extent_set hpadded, rows_padTo, rows_padTo, extent_set hp]
  · intro i
    by_cases hi : i < t.extent.rows
    · have hcolumn : p.column < width := Nat.lt_of_lt_of_le hp.2 hwidth
      have hset : i < (t.set p text).extent.rows := by rwa [extent_set hp]
      rw [length_row_set hpadded, length_row_padTo hi, length_row_padTo hset, length_row_set hp]
      split <;> omega
    · rw [row_eq_nil (by rw [extent_set hpadded, rows_padTo]; omega),
        row_eq_nil (by rw [rows_padTo, extent_set hp]; omega)]
  · intro q
    rw [text_set hpadded, text_padTo, text_padTo, text_set hp]

/-- Tables with the same texts are the same when they are padded to one width. -/
theorem padTo_eq_padTo {u : Table} (hrows : t.extent.rows = u.extent.rows)
    (ht : t.extent.columns ≤ width) (hu : u.extent.columns ≤ width)
    (htext : ∀ p, t.text p = u.text p) : t.padTo width = u.padTo width := by
  apply eq_of_text_eq
  · rw [rows_padTo, rows_padTo, hrows]
  · intro i
    by_cases hi : i < t.extent.rows
    · rw [length_row_padTo hi, length_row_padTo (hrows ▸ hi),
        Nat.max_eq_right (Nat.le_trans (t.length_row_le i) ht),
        Nat.max_eq_right (Nat.le_trans (u.length_row_le i) hu)]
    · rw [row_eq_nil (by rw [rows_padTo]; omega), row_eq_nil (by rw [rows_padTo]; omega)]
  · intro p
    rw [text_padTo, text_padTo, htext]

theorem agreeOn_padTo (t : Table) (cells : Position → Prop) :
    AgreeOn t.extent cells (t.padTo t.extent.columns) t :=
  ⟨extent_padTo_columns t, rfl, fun p _ => text_padTo t.extent.columns t p⟩

end Table

namespace Engine

variable {engine : Engine} {formula : Formula} {table : Table}

theorem writeCell_padTo {p : Position} (hp : table.extent.Contains p) :
    engine.writeCell formula (table.padTo table.extent.columns) p =
      Table.padTo table.extent.columns <$> engine.writeCell formula table p := by
  rw [writeCell, writeCell, eval_congr (table.agreeOn_padTo _)]
  cases engine.eval table p formula.expr with
  | error e => rfl
  | ok value => exact congrArg Except.ok (Table.set_padTo hp (Nat.le_refl _) _)

theorem applyFormula_padTo (engine : Engine) (formula : Formula) (table : Table) :
    engine.applyFormula (table.padTo table.extent.columns) formula =
      Table.padTo table.extent.columns <$> engine.applyFormula table formula := by
  rw [applyFormula, applyFormula, Table.extent_padTo_columns]
  cases hcells : formula.target.targetCells table.extent with
  | error e => rfl
  | ok cells =>
    have hcontains {p : Position} (hp : p ∈ cells) : table.extent.Contains p :=
      Reference.contains_of_mem_targetCells hcells hp
    refine foldlM_map (P := fun t => t.extent = table.extent) ?_ ?_ rfl
    · intro t ht p hp
      rw [← ht]
      exact writeCell_padTo (ht ▸ hcontains hp)
    · intro t ht p hp t' hwrite
      rw [writeCell_extent (ht ▸ hcontains hp) hwrite, ht]

theorem apply_padTo (engine : Engine) (formulas : List Formula) (table : Table) :
    engine.apply formulas (table.padTo table.extent.columns) =
      Table.padTo table.extent.columns <$> engine.apply formulas table := by
  refine foldlM_map (P := fun t => t.extent = table.extent) ?_ ?_ rfl
  · intro t ht formula _
    rw [← ht]
    exact engine.applyFormula_padTo formula t
  · intro t ht formula _ t' hformula
    rw [(applyFormula_written hformula).extent, ht]

/-- Directives do the same to a table that is padded to its width. -/
theorem evaluate_padTo (engine : Engine) (directives : List String) (table : Table) :
    engine.evaluate directives (table.padTo table.extent.columns) =
      Table.padTo table.extent.columns <$> engine.evaluate directives table := by
  rw [evaluate, evaluate]
  cases Formula.ofDirectives engine.functions directives with
  | error e => rfl
  | ok formulas => exact engine.apply_padTo formulas table

end Engine

end TableCalc
