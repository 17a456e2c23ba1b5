import TableCalc.Address.Resolve
import TableCalc.Proofs.Outcome

/-!
What resolving addresses can fail with: the cells that are asked for are not there, or there are none
between the ends of a range.
-/

namespace TableCalc

/-- Errors about the cells that a formula asks for: addresses outside the table, ranges that are
empty, and ranges where a single cell has to stand. -/
def FormulaError.IsOfCells : FormulaError → Prop
  | .addressOutOfRange .. | .emptyRange _ | .bothOperandsAreRanges _ | .divisorIsRange
  | .comparedRange => True
  | .unreadable .. | .unknownFunction .. | .divisionByZero | .internal _ => False

theorem FormulaError.IsOfCells.code_ne {error : FormulaError} (h : error.IsOfCells) :
    error.code ≠ "INTERNAL" ∧ error.code ≠ "PARSE_ERROR" ∧ error.code ≠ "UNKNOWN_FUNCTION" ∧
      error.code ≠ "DIV_ZERO" := by
  cases error with
  | unreadable | unknownFunction | divisionByZero | internal => exact h.elim
  | addressOutOfRange | emptyRange | bothOperandsAreRanges | divisorIsRange | comparedRange =>
    simp [code]

variable {axis : Axis} {context : Position} {extent : Extent} {error : FormulaError}

theorem Address.resolve_eq_error {address : Address}
    (h : address.resolve axis context extent = .error error) :
    ∃ position, error = .addressOutOfRange axis address position (extent.on axis) := by
  simp only [resolve] at h
  split at h
  · cases h
  · cases h
    exact ⟨_, rfl⟩

theorem Address.isOfCells_of_resolve {address : Address}
    (h : address.resolve axis context extent = .error error) : error.IsOfCells := by
  obtain ⟨_, rfl⟩ := address.resolve_eq_error h
  trivial

theorem CellRef.isOfCells_of_resolve {cell : CellRef}
    (h : cell.resolve context extent = .error error) : error.IsOfCells := by
  have hcoordinate {address : Option Address} {axis : Axis}
      (h : resolveCoordinate address axis context extent = .error error) : error.IsOfCells := by
    cases address with
    | none => cases h
    | some a => exact a.isOfCells_of_resolve h
  rcases bind_eq_error_iff.mp h with hrow | ⟨_, _, h⟩
  · exact hcoordinate hrow
  · rcases bind_eq_error_iff.mp h with hcolumn | ⟨_, _, h⟩
    · exact hcoordinate hcolumn
    · cases h

theorem Reference.isOfCells_of_resolve {reference : Reference}
    (h : reference.resolve context extent = .error error) : error.IsOfCells := by
  cases reference with
  | cell cell =>
    rcases bind_eq_error_iff.mp h with hcell | ⟨_, _, h⟩
    · exact cell.isOfCells_of_resolve hcell
    · cases h
  | range start finish =>
    rcases bind_eq_error_iff.mp h with hstart | ⟨_, _, h⟩
    · exact start.isOfCells_of_resolve hstart
    · rcases bind_eq_error_iff.mp h with hfinish | ⟨_, _, h⟩
      · exact finish.isOfCells_of_resolve hfinish
      · split at h
        · cases h
          trivial
        · cases h

theorem isOfCells_of_targetSpan {start finish : Option Address}
    (h : targetSpan start finish axis extent = .error error) : error.IsOfCells := by
  have hend {address : Option Address} {whenOpen : Option Nat}
      (h : targetEnd address axis extent whenOpen = .error error) : error.IsOfCells := by
    cases address with
    | none => cases h
    | some a => exact a.isOfCells_of_resolve (map_eq_error_iff.mp h)
  rcases bind_eq_error_iff.mp h with hlow | ⟨low?, _, h⟩
  · exact hend hlow
  · cases low? with
    | none => cases h
    | some low =>
      rcases bind_eq_error_iff.mp h with hhigh | ⟨_, _, h⟩
      · exact hend hhigh
      · cases h

theorem Reference.isOfCells_of_targetCells {target : Reference}
    (h : target.targetCells extent = .error error) : error.IsOfCells := by
  rcases bind_eq_error_iff.mp h with hrows | ⟨rows, _, h⟩
  · exact isOfCells_of_targetSpan hrows
  · rcases bind_eq_error_iff.mp h with hcolumns | ⟨columns, _, h⟩
    · exact isOfCells_of_targetSpan hcolumns
    · split at h
      · split at h
        · cases h
          trivial
        · cases h
      · cases h

end TableCalc
