import TableCalc.Evaluation
import TableCalc.Proofs.Decimal.Sums
import TableCalc.Proofs.Function.Standard

/-!
Operations on grids. One operand has to be a single cell, which is combined with every cell of the
other one and stays on its own side. An operation fails because of the shapes of its operands or by
dividing by zero, and each of these reasons comes before the next one; where there is none of them,
it has a value of the size of the other operand.
-/

namespace TableCalc

namespace Grid

variable {ε : Type} {f : String → Except ε String} {g out : Grid}

theorem Rectangular.isCell_iff_single (h : g.Rectangular) :
    g.isCell = true ↔ ∃ text, g = .single text := by
  constructor
  · intro hcell
    exact ⟨_, h.eq_single hcell⟩
  · rintro ⟨text, rfl⟩
    rfl

theorem Rectangular.isCell_eq_false (h : g.Rectangular) (hrange : ∀ text, g ≠ .single text) :
    g.isCell = false := by
  rw [← Bool.not_eq_true, h.isCell_iff_single]
  rintro ⟨text, htext⟩
  exact hrange text htext

theorem mapCells_single (text : String) : (single text).mapCells f = single <$> f text := by
  simp only [mapCells, single, List.mapM_cons, List.mapM_nil]
  cases f text <;> rfl

theorem exists_of_mapCells_eq_error {e : ε} (h : g.mapCells f = .error e) :
    ∃ row ∈ g.cells, ∃ text ∈ row, f text = .error e := by
  rcases bind_eq_error_iff.mp h with h | ⟨_, _, h⟩
  · obtain ⟨row, hrow, h⟩ := exists_of_mapM_eq_error h
    obtain ⟨text, htext, h⟩ := exists_of_mapM_eq_error h
    exact ⟨row, hrow, text, htext, h⟩
  · cases h

section Size

variable (h : g.mapCells f = .ok out)

include h

theorem rowCount_mapCells : out.rowCount = g.rowCount := by
  obtain ⟨rows, hrows, h⟩ := bind_eq_ok_iff.mp h
  cases h
  exact (mapM_eq_ok_iff.mp hrows).length_eq.symm

/-- What stands at a place comes from what stood there. -/
theorem text_mapCells (hg : g.Rectangular) {i j : Nat} (hi : i < g.rowCount)
    (hj : j < g.columnCount) : f (g.text i j) = .ok (out.text i j) := by
  obtain ⟨rows, hrows, h⟩ := bind_eq_ok_iff.mp h
  cases h
  have hrow : g.cells[i]? = some g.cells[i] := List.getElem?_eq_getElem hi
  have hwidth : j < g.cells[i].length := by
    rw [hg.width _ (List.getElem_mem hi)]
    exact hj
  obtain ⟨row', hrow', hmap⟩ := getElem?_of_mapM hrows hrow
  obtain ⟨text', htext', hf⟩ := getElem?_of_mapM hmap (List.getElem?_eq_getElem hwidth)
  rw [text, text, hrow, hrow', Option.getD_some, Option.getD_some, htext',
    List.getElem?_eq_getElem hwidth, Option.getD_some, Option.getD_some]
  exact hf

theorem columnCount_mapCells (hg : g.Rectangular) : out.columnCount = g.columnCount := by
  obtain ⟨rows, hrows, h⟩ := bind_eq_ok_iff.mp h
  cases h
  obtain ⟨first, rest, hfirst⟩ := List.exists_cons_of_length_pos hg.rows
  have hall := mapM_eq_ok_iff.mp hrows
  rw [hfirst] at hall
  obtain ⟨first', rest', hmap, _, rfl⟩ := List.forall₂_cons_left_iff.mp hall
  rw [columnCount, columnCount, hfirst]
  exact (mapM_eq_ok_iff.mp hmap).length_eq.symm

end Size

/-- A rectangle has a first cell to fail at. -/
theorem Rectangular.mapCells_eq_error (hg : g.Rectangular) {e : ε}
    (hf : ∀ text, f text = .error e) : g.mapCells f = .error e := by
  cases h : g.mapCells f with
  | ok out =>
    have hfirst := text_mapCells h hg hg.rows hg.columns
    rw [hf] at hfirst
    cases hfirst
  | error e' =>
    obtain ⟨_, _, text, _, htext⟩ := exists_of_mapCells_eq_error h
    rw [hf] at htext
    cases htext
    rfl

/-- The grid `out` has the size of `g`, and each of its cells is the text of a number that the
number of the same cell of `g` leads to. -/
structure CellByCell (R : Decimal → Decimal → Prop) (g out : Grid) : Prop where
  rectangular : out.Rectangular
  rows : out.rowCount = g.rowCount
  columns : out.columnCount = g.columnCount
  text : ∀ i < g.rowCount, ∀ j < g.columnCount,
    ∃ z, R (g.number i j) z ∧ out.text i j = z.canonical

theorem cellByCell_of_mapCells {c : Decimal → Except ε Decimal} (hg : g.Rectangular)
    (h : g.mapCells (fun cell => Decimal.canonical <$> c (Cell.number cell)) = .ok out) :
    CellByCell (fun x z => c x = .ok z) g out := by
  refine ⟨hg.mapCells h, rowCount_mapCells h, columnCount_mapCells h hg, ?_⟩
  intro i hi j hj
  obtain ⟨z, hz, htext⟩ := map_eq_ok_iff.mp (text_mapCells h hg hi hj)
  exact ⟨z, hz, htext.symm⟩

theorem exists_cellByCell {c : Decimal → Except ε Decimal} (hg : g.Rectangular)
    (hc : ∀ x, ∃ z, c x = .ok z) :
    ∃ out, g.mapCells (fun cell => Decimal.canonical <$> c (Cell.number cell)) = .ok out ∧
      CellByCell (fun x z => c x = .ok z) g out := by
  cases h : g.mapCells fun cell => Decimal.canonical <$> c (Cell.number cell) with
  | ok out => exact ⟨out, rfl, cellByCell_of_mapCells hg h⟩
  | error e =>
    obtain ⟨_, _, text, _, htext⟩ := exists_of_mapCells_eq_error h
    obtain ⟨z, hz⟩ := hc (Cell.number text)
    rw [map_eq_error_iff.mp htext] at hz
    cases hz

/-- For a single cell this is one number. -/
theorem cellByCell_single_iff {R : Decimal → Decimal → Prop} {text : String} :
    CellByCell R (.single text) out ↔ ∃ z, R (Cell.number text) z ∧ out = .ofDecimal z := by
  constructor
  · intro h
    obtain ⟨z, hz, htext⟩ := h.text 0 Nat.one_pos 0 Nat.one_pos
    have hcell : out.isCell = true := by
      rw [isCell, shape, h.rows, h.columns]
      rfl
    refine ⟨z, hz, ?_⟩
    rw [h.rectangular.eq_single hcell, htext, ofDecimal]
  · rintro ⟨z, hz, rfl⟩
    refine ⟨.ofDecimal z, rfl, rfl, ?_⟩
    intro i hi j hj
    obtain rfl : i = 0 := Nat.lt_one_iff.mp hi
    obtain rfl : j = 0 := Nat.lt_one_iff.mp hj
    exact ⟨z, hz, rfl⟩

end Grid

namespace Operation

/-- What an operation gives for two numbers. Division by zero gives nothing. -/
inductive Gives (digits : ℕ) : Operation → Decimal → Decimal → Decimal → Prop
  | add (x y : Decimal) : Gives digits .add x y (x + y)
  | subtract (x y : Decimal) : Gives digits .subtract x y (x - y)
  | multiply (x y : Decimal) : Gives digits .multiply x y (x * y)
  | divide {x y z : Decimal} (h : Decimal.divideTo digits x y = .ok z) : Gives digits .divide x y z

/-- Why an operation has no value for two grids: both are ranges, the divisor is one, or the divisor
is a cell that counts as zero. -/
inductive Refuses : Operation → Grid → Grid → FormulaError → Prop
  | ranges {op : Operation} {left right : Grid} (hleft : ∀ a, left ≠ .single a)
      (hright : ∀ b, right ≠ .single b) : Refuses op left right (.bothOperandsAreRanges op)
  | divisor {a : String} {right : Grid} (hright : ∀ b, right ≠ .single b) :
      Refuses .divide (.single a) right .divisorIsRange
  | zero {left : Grid} {b : String} (hzero : (Cell.number b).value = 0) :
      Refuses .divide left (.single b) .divisionByZero

variable {op : Operation} {digits : ℕ} {error : FormulaError}

section Numbers

variable {x y z : Decimal}

theorem combine_eq_ok_iff : op.combine digits x y = .ok z ↔ op.Gives digits x y z := by
  constructor
  · intro h
    cases op with
    | add =>
      cases h
      exact .add x y
    | subtract =>
      cases h
      exact .subtract x y
    | multiply =>
      cases h
      exact .multiply x y
    | divide => exact .divide (mapError_eq_ok_iff.mp h)
  · intro h
    cases h with
    | divide h => exact mapError_eq_ok_iff.mpr h
    | add | subtract | multiply => rfl

theorem combine_eq_error_iff : op.combine digits x y = .error error ↔
    op = .divide ∧ y = 0 ∧ error = .divisionByZero := by
  cases op with
  | divide =>
    change (Decimal.divideTo digits x y).mapError FormulaError.ofFault = _ ↔ _
    cases hdivide : Decimal.divideTo digits x y with
    | ok q =>
      have hy : y ≠ 0 := by
        rintro rfl
        rw [Decimal.divideTo_eq_error_iff.mpr ⟨rfl, rfl⟩] at hdivide
        cases hdivide
      simp [Except.mapError, hy]
    | error fault =>
      obtain ⟨rfl, hy⟩ := Decimal.divideTo_eq_error_iff.mp hdivide
      simp [Except.mapError, FormulaError.ofFault, hy, eq_comm]
  | add | subtract | multiply => simp [combine]

theorem exists_combine_eq_ok (digits : ℕ) (h : op = .divide → y ≠ 0) (x : Decimal) :
    ∃ z, op.combine digits x y = .ok z := by
  cases hcombine : op.combine digits x y with
  | ok z => exact ⟨z, rfl⟩
  | error e =>
    obtain ⟨hop, hy, -⟩ := combine_eq_error_iff.mp hcombine
    exact absurd hy (h hop)

/-- The sides of a sum or a product may be changed. -/
theorem combine_comm (hop : op = .add ∨ op = .multiply) (digits : ℕ) (x y : Decimal) :
    op.combine digits x y = op.combine digits y x := by
  rcases hop with rfl | rfl
  · exact congrArg Except.ok (x.add_comm y)
  · exact congrArg Except.ok (Decimal.mul_comm x y)

end Numbers

section Sides

variable {left right : Grid}

theorem apply_ranges (hleft : left.isCell = false) (hright : right.isCell = false) :
    op.apply digits left right = .error (.bothOperandsAreRanges op) := by
  rw [apply, hleft, hright]
  rfl

theorem apply_left_single (h : op = .divide → right.isCell = true) (a : String) :
    op.apply digits (.single a) right = right.mapCells fun cell =>
      Decimal.canonical <$> op.combine digits (Cell.number a) (Cell.number cell) := by
  have hdivisor : ¬(op == .divide && !right.isCell) = true := by
    simpa using h
  have hcell : (Grid.single a).isCell = true := rfl
  rw [apply, hcell, if_neg (by simp), if_neg hdivisor, if_pos rfl]
  rfl

/-- With a single cell on the right, every cell on the left is combined with it, also if that is but
one cell. -/
theorem apply_right_single (hleft : left.Rectangular) (b : String) :
    op.apply digits left (.single b) = left.mapCells fun cell =>
      Decimal.canonical <$> op.combine digits (Cell.number cell) (Cell.number b) := by
  have hcell : (Grid.single b).isCell = true := rfl
  by_cases hsingle : left.isCell = true
  · rw [hleft.eq_single hsingle, apply_left_single (fun _ => hcell), Grid.mapCells_single,
      Grid.mapCells_single]
  · rw [apply, hcell, if_neg (by simp), if_neg (by simp), if_neg hsingle]
    rfl

end Sides

section Outcome

variable {left right : Grid} (hleft : left.Rectangular) (hright : right.Rectangular)

include hleft hright

theorem Refuses.apply_eq_error (h : op.Refuses left right error) :
    op.apply digits left right = .error error := by
  cases h with
  | ranges hl hr => exact apply_ranges (hleft.isCell_eq_false hl) (hright.isCell_eq_false hr)
  | divisor hr =>
    rw [apply, hright.isCell_eq_false hr]
    rfl
  | zero hzero =>
    rw [apply_right_single hleft]
    apply hleft.mapCells_eq_error
    intro cell
    exact map_eq_error_iff.mpr
      (combine_eq_error_iff.mpr ⟨rfl, Decimal.value_eq_zero_iff.mp hzero, rfl⟩)

/-- Where nothing stands against it, an operation combines cell by cell. -/
theorem exists_apply_eq_ok (h : ∀ error, ¬op.Refuses left right error) (digits : ℕ) :
    ∃ out, op.apply digits left right = .ok out ∧
      (∀ a, left = .single a → right.CellByCell (op.Gives digits (Cell.number a)) out) ∧
      (∀ b, right = .single b →
        left.CellByCell (fun x => op.Gives digits x (Cell.number b)) out) := by
  by_cases hr : ∃ b, right = .single b
  case pos =>
    obtain ⟨b, rfl⟩ := hr
    have hzero : op = .divide → Cell.number b ≠ 0 := by
      rintro rfl hb
      exact h _ (.zero (Decimal.value_eq_zero_iff.mpr hb))
    obtain ⟨out, hout, hcells⟩ :=
      Grid.exists_cellByCell hleft (exists_combine_eq_ok digits hzero)
    simp only [combine_eq_ok_iff] at hcells
    refine ⟨out, (apply_right_single hleft b).trans hout, ?_, ?_⟩
    · rintro a rfl
      rw [Grid.cellByCell_single_iff] at hcells ⊢
      exact hcells
    · intro b' hb'
      cases hb'
      exact hcells
  case neg =>
    rw [not_exists] at hr
    obtain ⟨a, rfl⟩ : ∃ a, left = .single a := by
      by_contra hl
      exact h _ (.ranges (not_exists.mp hl) hr)
    have hop : op ≠ .divide := by
      rintro rfl
      exact h _ (.divisor hr)
    have hcombine (y : Decimal) : ∃ z, op.combine digits (Cell.number a) y = .ok z :=
      exists_combine_eq_ok digits (fun heq => absurd heq hop) (Cell.number a)
    obtain ⟨out, hout, hcells⟩ := Grid.exists_cellByCell hright hcombine
    simp only [combine_eq_ok_iff] at hcells
    refine ⟨out, (apply_left_single (fun heq => absurd heq hop) a).trans hout, ?_, ?_⟩
    · intro a' ha'
      cases ha'
      exact hcells
    · intro b hb
      exact absurd hb (hr b)

theorem apply_eq_error_iff :
    op.apply digits left right = .error error ↔ op.Refuses left right error := by
  constructor
  · intro happly
    by_contra hnot
    have hnone (e : FormulaError) : ¬op.Refuses left right e := by
      intro he
      rw [he.apply_eq_error hleft hright] at happly
      cases happly
      exact hnot he
    obtain ⟨out, hout, -⟩ := exists_apply_eq_ok hleft hright hnone digits
    rw [hout] at happly
    cases happly
  · exact Refuses.apply_eq_error hleft hright

/-- The operands of a sum or a product may change sides. -/
theorem apply_comm (hop : op = .add ∨ op = .multiply) (digits : ℕ) :
    op.apply digits left right = op.apply digits right left := by
  have hdivide : op ≠ .divide := by
    rcases hop with rfl | rfl
    · decide
    · decide
  have hsingle {g : Grid} (hg : g.Rectangular) (b : String) :
      op.apply digits g (.single b) = op.apply digits (.single b) g := by
    rw [apply_right_single hg, apply_left_single (fun heq => absurd heq hdivide)]
    simp only [combine_comm hop]
  cases hl : left.isCell with
  | true =>
    rw [hleft.eq_single hl]
    exact (hsingle hright _).symm
  | false =>
    cases hr : right.isCell with
    | true =>
      rw [hright.eq_single hr]
      exact hsingle hleft _
    | false => rw [apply_ranges hl hr, apply_ranges hr hl]

/-- Operations combine a single cell with every cell of the other operand. Two ranges are refused,
else a range as divisor, else a divisor that counts as zero, and nothing else is. What is not
refused has a value of the size of the other operand, which holds at each place the canonical text
of what the operation gives for the single cell and the cell at this place, each on its own side.
Sums and products have the same outcome with their operands swapped. -/
theorem apply_broadcasts (op : Operation) (digits : ℕ) :
    (∀ error, op.apply digits left right = .error error ↔ op.Refuses left right error) ∧
    ((∀ error, ¬op.Refuses left right error) →
      ∃ out, op.apply digits left right = .ok out ∧
        (∀ a, left = .single a → right.CellByCell (op.Gives digits (Cell.number a)) out) ∧
        (∀ b, right = .single b →
          left.CellByCell (fun x => op.Gives digits x (Cell.number b)) out)) ∧
    (op = .add ∨ op = .multiply → op.apply digits left right = op.apply digits right left) := by
  refine ⟨fun error => apply_eq_error_iff hleft hright, fun h => ?_, fun hop => ?_⟩
  · exact exists_apply_eq_ok hleft hright h digits
  · exact apply_comm hleft hright hop digits

end Outcome

/-- A single cell on the left of a difference stays there. -/
theorem apply_broadcasts_subtract :
    let range : Grid := ⟨[["3"], ["5"]]⟩
    (Grid.single "9").Rectangular ∧ range.Rectangular ∧
    ∃ out, subtract.apply 20 (.single "9") range = .ok out ∧ out.rowCount = 2 ∧
      out.columnCount = 1 ∧ out.text 0 0 = "6" ∧ out.text 1 0 = "4" := by
  intro range
  have hrange : range.Rectangular := by decide
  have hcells : ∀ error, ¬subtract.Refuses (.single "9") range error := by
    rintro error (⟨hleft, -⟩)
    exact hleft "9" rfl
  obtain ⟨out, hout, hleft, -⟩ := (apply_broadcasts (.single "9") hrange subtract 20).2.1 hcells
  have hspread := hleft "9" rfl
  refine ⟨.single "9", hrange, out, hout, hspread.rows, hspread.columns, ?_, ?_⟩
  · obtain ⟨z, ⟨⟩, htext⟩ := hspread.text 0 (by decide) 0 (by decide)
    rw [htext]
    decide +kernel
  · obtain ⟨z, ⟨⟩, htext⟩ := hspread.text 1 (by decide) 0 (by decide)
    rw [htext]
    decide +kernel

end Operation

end TableCalc
