import TableCalc.Proofs.Address.Errors
import TableCalc.Proofs.Address.Target

/-!
What a target covers. On each axis it begins and ends at the position that is written, or where the
axis begins and ends for targets. The outcome is told from these positions: the cells between them,
row by row, or why there are none. A written end that is outside the table makes the target fail,
unless the target is open at its beginning on that axis and finds nothing to begin at: then it has
no cells, and the end is not looked at.
-/

namespace TableCalc

/-- The order of cells row by row. -/
def Position.Before (p q : Position) : Prop :=
  p.row < q.row ∨ p.row = q.row ∧ p.column < q.column

namespace Rectangle

theorem pairwise_positions (r : Rectangle) : r.positions.Pairwise Position.Before := by
  apply List.pairwise_flatMap.mpr
  constructor
  · intro row _
    apply List.Pairwise.map _ _ (List.pairwise_lt_range' 1)
    intro left right hlt
    exact .inr ⟨rfl, hlt⟩
  · apply (List.pairwise_lt_range' 1).imp
    intro above below hlt p hp q hq
    obtain ⟨_, _, rfl⟩ := List.mem_map.mp hp
    obtain ⟨_, _, rfl⟩ := List.mem_map.mp hq
    exact .inl hlt

theorem nodup_positions (r : Rectangle) : r.positions.Nodup := by
  apply r.pairwise_positions.imp
  rintro p _ hbefore rfl
  rcases hbefore with hrow | ⟨_, hcolumn⟩
  · exact Nat.lt_irrefl _ hrow
  · exact Nat.lt_irrefl _ hcolumn

end Rectangle

/-- An address that means no row or column of the table, whichever cell is being computed. -/
def Address.IsOutside (address : Address) (axis : Axis) (extent : Extent) : Prop :=
  ∀ context n, address.resolve axis context extent ≠ .ok n

/-- The addresses that a reference has on an axis. -/
def Reference.written (reference : Reference) (axis : Axis) : List Address :=
  (reference.start.on axis).toList ++ (reference.finish.on axis).toList

/-- Whether a target is open at its beginning on an axis, and the table has no row below the header
or no column to begin at. -/
def Reference.IsVoid (target : Reference) (axis : Axis) (extent : Extent) : Prop :=
  target.start.on axis = none ∧ extent.on axis ≤ axis.firstTarget

/-- Where an end of a target is on an axis: at the position that is written, for whatever cell; or
where open ends are, if there is such a row or column. -/
inductive EndsAt (axis : Axis) (extent : Extent) (whenOpen : Nat) : Option Address → Nat → Prop
  | written {address : Address} {n : Nat}
      (h : ∀ context, address.resolve axis context extent = .ok n) :
      EndsAt axis extent whenOpen (some address) n
  | opened (h : whenOpen < extent.on axis) : EndsAt axis extent whenOpen none whenOpen

/-- The first and the last position of a target on an axis. Open ends are at the first row below the
header or the first column, and at the last row or column. -/
structure Reference.Covers (target : Reference) (axis : Axis) (extent : Extent) (low high : Nat) :
    Prop where
  start : EndsAt axis extent axis.firstTarget (target.start.on axis) low
  finish : EndsAt axis extent (extent.on axis - 1) (target.finish.on axis) high

variable {axis : Axis} {extent : Extent} {target : Reference}

/-- Without an offset, the cell that is being computed does not count. -/
theorem Address.resolve_fixed {address : Address} (h : address.isRelative = false)
    (context other : Position) :
    address.resolve axis context extent = address.resolve axis other extent := by
  cases address with
  | offset k => cases h
  | index | first | last | anchor => rfl

theorem Address.isOutside_of_error {address : Address} {error : FormulaError}
    (h : ∀ context, address.resolve axis context extent = .error error) :
    address.IsOutside axis extent := by
  intro context n hn
  rw [h context] at hn
  cases hn

theorem CellRef.isRelative_on {cell : CellRef} (h : cell.isRelative = false) :
    ∀ a ∈ cell.on axis, a.isRelative = false := by
  rw [isRelative, Bool.or_eq_false_iff, Option.any_eq_false, Option.any_eq_false] at h
  intro a ha
  cases axis with
  | row => simpa using h.1 a ha
  | column => simpa using h.2 a ha

theorem EndsAt.lt {address : Option Address} {whenOpen n : Nat}
    (h : EndsAt axis extent whenOpen address n) : n < extent.on axis := by
  cases h with
  | written h => exact Address.resolve_lt (h ⟨0, 0⟩)
  | opened h => exact h

theorem EndsAt.not_isOutside {address : Address} {whenOpen n : Nat}
    (h : EndsAt axis extent whenOpen (some address) n) : ¬address.IsOutside axis extent := by
  cases h with
  | written h =>
    intro houtside
    exact houtside ⟨0, 0⟩ n (h ⟨0, 0⟩)

theorem EndsAt.unique {address : Option Address} {whenOpen n m : Nat}
    (hn : EndsAt axis extent whenOpen address n) (hm : EndsAt axis extent whenOpen address m) :
    n = m := by
  cases hn with
  | written hn =>
    cases hm with
    | written hm => exact Except.ok.inj ((hn ⟨0, 0⟩).symm.trans (hm ⟨0, 0⟩))
  | opened =>
    cases hm with
    | opened => rfl

namespace Reference.Covers

variable {low high : Nat} (h : target.Covers axis extent low high)

include h

theorem not_isVoid : ¬target.IsVoid axis extent := by
  rintro ⟨hopen, hsize⟩
  have hstart := h.start
  rw [hopen] at hstart
  cases hstart with
  | opened hlt => omega

theorem not_isOutside {address : Address} (ha : address ∈ target.written axis) :
    ¬address.IsOutside axis extent := by
  rcases List.mem_append.mp ha with hstart | hfinish
  · have hends := h.start
    rw [Option.mem_toList.mp hstart] at hends
    exact hends.not_isOutside
  · have hends := h.finish
    rw [Option.mem_toList.mp hfinish] at hends
    exact hends.not_isOutside

theorem unique {low' high' : Nat} (h' : target.Covers axis extent low' high') :
    low = low' ∧ high = high' :=
  ⟨h.start.unique h'.start, h.finish.unique h'.finish⟩

end Reference.Covers

/-- What resolving one end of a target comes to. -/
theorem targetEnd_cases {address : Option Address} (hfixed : ∀ a ∈ address, a.isRelative = false)
    (extent : Extent) (whenOpen : Option Nat) :
    (address = none ∧ targetEnd address axis extent whenOpen = .ok whenOpen) ∨
    (∃ a n, address = some a ∧ (∀ context, a.resolve axis context extent = .ok n) ∧
      targetEnd address axis extent whenOpen = .ok (some n)) ∨
    ∃ a error, address = some a ∧ (∀ context, a.resolve axis context extent = .error error) ∧
      targetEnd address axis extent whenOpen = .error error := by
  cases address with
  | none => exact .inl ⟨rfl, rfl⟩
  | some a =>
    right
    have hany (context : Position) :
        a.resolve axis context extent = a.resolve axis ⟨0, 0⟩ extent :=
      a.resolve_fixed (hfixed a rfl) context ⟨0, 0⟩
    cases h : a.resolve axis ⟨0, 0⟩ extent with
    | ok n =>
      have hresolve (context : Position) := (hany context).trans h
      exact .inl ⟨a, n, rfl, hresolve, map_eq_ok_iff.mpr ⟨n, h, rfl⟩⟩
    | error error =>
      have hresolve (context : Position) := (hany context).trans h
      exact .inr ⟨a, error, rfl, hresolve, map_eq_error_iff.mpr h⟩

/-- What a target comes to on an axis. -/
inductive Reference.SpansTo (target : Reference) (axis : Axis) (extent : Extent) :
    Except FormulaError (Option (Nat × Nat)) → Prop
  | void (h : target.IsVoid axis extent) : SpansTo target axis extent (.ok none)
  | covers {low high : Nat} (h : target.Covers axis extent low high) :
      SpansTo target axis extent (.ok (some (low, high)))
  | fails {address : Address} {error : FormulaError} (hvoid : ¬target.IsVoid axis extent)
      (hwritten : address ∈ target.written axis)
      (h : ∀ context, address.resolve axis context extent = .error error) :
      SpansTo target axis extent (.error error)

namespace Reference

theorem mem_written_start {address : Address} (h : target.start.on axis = some address) :
    address ∈ target.written axis :=
  List.mem_append_left _ (Option.mem_toList.mpr h)

theorem mem_written_finish {address : Address} (h : target.finish.on axis = some address) :
    address ∈ target.written axis :=
  List.mem_append_right _ (Option.mem_toList.mpr h)

variable (hfixed : target.isRelative = false)

include hfixed

/-- Once there is a first position, there is a last one, unless it is written and outside. -/
theorem spansTo_of_start {low : Nat}
    (hstart : EndsAt axis extent axis.firstTarget (target.start.on axis) low)
    (hlow : targetEnd (target.start.on axis) axis extent
      (if axis.firstTarget < extent.on axis then some axis.firstTarget else none) =
        .ok (some low)) :
    target.SpansTo axis extent
      (targetSpan (target.start.on axis) (target.finish.on axis) axis extent) := by
  have hsize : 0 < extent.on axis := Nat.zero_lt_of_lt hstart.lt
  have hfinish : target.finish.isRelative = false := (Bool.or_eq_false_iff.mp hfixed).2
  rw [targetSpan, hlow]
  simp only [bind, Except.bind, if_pos hsize]
  rcases targetEnd_cases (CellRef.isRelative_on hfinish) extent
      (some (extent.on axis - 1)) with
    ⟨hopen, hhigh⟩ | ⟨a, n, ha, hn, hhigh⟩ | ⟨a, error, ha, herror, hhigh⟩
  · rw [hhigh]
    exact .covers ⟨hstart, hopen ▸ .opened (Nat.sub_one_lt_of_lt hsize)⟩
  · rw [hhigh]
    exact .covers ⟨hstart, ha ▸ .written hn⟩
  · rw [hhigh]
    refine .fails ?_ (mem_written_finish ha) herror
    rintro ⟨hopen, hnone⟩
    rw [hopen, targetEnd, if_neg (Nat.not_lt.mpr hnone)] at hlow
    cases hlow

theorem spansTo_targetSpan : target.SpansTo axis extent
    (targetSpan (target.start.on axis) (target.finish.on axis) axis extent) := by
  have hstart : target.start.isRelative = false := (Bool.or_eq_false_iff.mp hfixed).1
  rcases targetEnd_cases (CellRef.isRelative_on hstart) extent
      (if axis.firstTarget < extent.on axis then some axis.firstTarget else none) with
    ⟨hopen, hlow⟩ | ⟨a, n, ha, hn, hlow⟩ | ⟨a, error, ha, herror, hlow⟩
  · by_cases hfirst : axis.firstTarget < extent.on axis
    · apply spansTo_of_start hfixed
      · rw [hopen]
        exact .opened hfirst
      · rw [hlow, if_pos hfirst]
    · rw [if_neg hfirst] at hlow
      rw [targetSpan, if_neg hfirst, hlow]
      exact .void ⟨hopen, Nat.not_lt.mp hfirst⟩
  · exact spansTo_of_start hfixed (ha ▸ .written hn) hlow
  · rw [targetSpan, hlow]
    refine .fails ?_ (mem_written_start ha) herror
    rintro ⟨hopen, _⟩
    rw [hopen] at ha
    cases ha

end Reference

/-- Whether no address of a target is outside the table, but on axes where it finds nothing to begin
at. -/
def Reference.InReach (target : Reference) (extent : Extent) : Prop :=
  ∀ axis, target.IsVoid axis extent ∨
    ∀ address ∈ target.written axis, ¬address.IsOutside axis extent

theorem Reference.InReach.of_axes
    (hrow : target.IsVoid .row extent ∨
      ∀ address ∈ target.written .row, ¬address.IsOutside .row extent)
    (hcolumn : target.IsVoid .column extent ∨
      ∀ address ∈ target.written .column, ¬address.IsOutside .column extent) :
    target.InReach extent
  | .row => hrow
  | .column => hcolumn

theorem Reference.inReach_of_covers {r : Rectangle}
    (hrows : target.Covers .row extent r.top r.bottom)
    (hcolumns : target.Covers .column extent r.left r.right) : target.InReach extent :=
  .of_axes (.inr fun _ => hrows.not_isOutside) (.inr fun _ => hcolumns.not_isOutside)

/-- What a target comes to: cells, no cells, or an error. -/
inductive Reference.CoversCells (target : Reference) (extent : Extent) :
    Except FormulaError (List Position) → Prop
  | fails {axis : Axis} {address : Address} {error : FormulaError}
      (hvoid : ¬target.IsVoid axis extent) (hwritten : address ∈ target.written axis)
      (h : ∀ context, address.resolve axis context extent = .error error) :
      CoversCells target extent (.error error)
  | void {axis : Axis} (hvoid : target.IsVoid axis extent) (hreach : target.InReach extent) :
      CoversCells target extent (.ok [])
  | reversed {r : Rectangle} (hrows : target.Covers .row extent r.top r.bottom)
      (hcolumns : target.Covers .column extent r.left r.right)
      (h : r.bottom < r.top ∨ r.right < r.left) :
      CoversCells target extent (.error (.emptyRange target))
  | cells {r : Rectangle} (hrows : target.Covers .row extent r.top r.bottom)
      (hcolumns : target.Covers .column extent r.left r.right) (htop : r.top ≤ r.bottom)
      (hleft : r.left ≤ r.right) : CoversCells target extent (.ok r.positions)

theorem Reference.coversCells_targetCells (hfixed : target.isRelative = false) (extent : Extent) :
    target.CoversCells extent (target.targetCells extent) := by
  have hrows : target.SpansTo .row extent
      (targetSpan target.start.row target.finish.row .row extent) := spansTo_targetSpan hfixed
  have hcolumns : target.SpansTo .column extent
      (targetSpan target.start.column target.finish.column .column extent) :=
    spansTo_targetSpan hfixed
  rw [targetCells]
  generalize targetSpan target.start.row target.finish.row .row extent = rows at hrows ⊢
  generalize targetSpan target.start.column target.finish.column .column extent = columns
    at hcolumns ⊢
  cases hrows with
  | fails hvoid hwritten h => exact .fails hvoid hwritten h
  | void hnoRow =>
    cases hcolumns with
    | fails hvoid hwritten h => exact .fails hvoid hwritten h
    | void hnoColumn => exact .void hnoRow (.of_axes (.inl hnoRow) (.inl hnoColumn))
    | covers hcolumns =>
      exact .void hnoRow (.of_axes (.inl hnoRow) (.inr fun _ => hcolumns.not_isOutside))
  | covers hrows =>
    cases hcolumns with
    | fails hvoid hwritten h => exact .fails hvoid hwritten h
    | void hnoColumn =>
      exact .void hnoColumn (.of_axes (.inr fun _ => hrows.not_isOutside) (.inl hnoColumn))
    | @covers left right hcolumns =>
      simp only [bind, Except.bind]
      split
      · next hreversed => exact .reversed (r := ⟨_, left, _, right⟩) hrows hcolumns hreversed
      · next hordered =>
        rw [not_or, Nat.not_lt, Nat.not_lt] at hordered
        exact .cells (r := ⟨_, left, _, right⟩) hrows hcolumns hordered.1 hordered.2

/-- What a target without offsets covers. If it is open at its beginning on an axis where the table
has no row below the header, or no column, it has no cells. Otherwise the cells are those between
its first and last row and its first and last column, each once and row by row. A bound that is
written is the position that it is resolved to, for whatever cell; the others are the first row
below the header, the first column, and the last row and column. All of this is inside the table. -/
theorem Reference.targetCells_rowMajor {cells : List Position} (hfixed : target.isRelative = false)
    (h : target.targetCells extent = .ok cells) :
    ((cells = [] ∧ ∃ axis, target.IsVoid axis extent) ∨
      ∃ r : Rectangle, target.Covers .row extent r.top r.bottom ∧
        target.Covers .column extent r.left r.right ∧ r.top ≤ r.bottom ∧ r.left ≤ r.right ∧
        (∀ p, p ∈ cells ↔ (r.top ≤ p.row ∧ p.row ≤ r.bottom) ∧
          r.left ≤ p.column ∧ p.column ≤ r.right) ∧
        cells.Pairwise Position.Before ∧ cells.Nodup) ∧
    ∀ p ∈ cells, extent.Contains p := by
  have hcovers := coversCells_targetCells hfixed extent
  refine ⟨?_, fun p hp => contains_of_mem_targetCells h hp⟩
  rw [h] at hcovers
  cases hcovers with
  | void hvoid => exact .inl ⟨rfl, _, hvoid⟩
  | @cells r hrows hcolumns htop hleft =>
    exact .inr ⟨r, hrows, hcolumns, htop, hleft, r.mem_positions, r.pairwise_positions,
      r.nodup_positions⟩

/-- From the first row below the header in the second column to the last row and column. -/
theorem Reference.targetCells_rowMajor_open :
    let target : Reference := .range ⟨none, some (.index 2)⟩ ⟨some .last, none⟩
    target.isRelative = false ∧
    target.targetCells ⟨3, 3⟩ = .ok [⟨1, 1⟩, ⟨1, 2⟩, ⟨2, 1⟩, ⟨2, 2⟩] ∧
    ∃ r : Rectangle, target.Covers .row ⟨3, 3⟩ r.top r.bottom ∧
      target.Covers .column ⟨3, 3⟩ r.left r.right ∧
      List.Pairwise Position.Before [⟨1, 1⟩, ⟨1, 2⟩, ⟨2, 1⟩, ⟨2, 2⟩] := by
  intro target
  have hcells : target.targetCells ⟨3, 3⟩ = .ok [⟨1, 1⟩, ⟨1, 2⟩, ⟨2, 1⟩, ⟨2, 2⟩] := rfl
  refine ⟨rfl, hcells, ?_⟩
  have hfixed : target.isRelative = false := rfl
  obtain ⟨⟨hnil, _⟩ | ⟨r, hrows, hcolumns, _, _, _, hbefore, _⟩, _⟩ :=
    targetCells_rowMajor hfixed hcells
  · cases hnil
  · exact ⟨r, hrows, hcolumns, hbefore⟩

namespace Reference.CoversCells

variable {outcome : Except FormulaError (List Position)} (h : target.CoversCells extent outcome)

include h

theorem outOfRange_iff :
    (∃ error, outcome = .error error ∧ error.code = "ADDRESS_OUT_OF_RANGE") ↔
      ∃ axis, ¬target.IsVoid axis extent ∧
        ∃ address ∈ target.written axis, address.IsOutside axis extent := by
  have hnone (hreach : target.InReach extent) : ¬∃ axis, ¬target.IsVoid axis extent ∧
      ∃ address ∈ target.written axis, address.IsOutside axis extent := by
    rintro ⟨axis, hnot, address, hwritten, houtside⟩
    exact (hreach axis).resolve_left hnot address hwritten houtside
  cases h with
  | @fails axis address error hvoid hwritten h =>
    obtain ⟨position, rfl⟩ := address.resolve_eq_error (h ⟨0, 0⟩)
    exact iff_of_true ⟨_, rfl, rfl⟩
      ⟨axis, hvoid, address, hwritten, Address.isOutside_of_error h⟩
  | void _ hreach =>
    refine iff_of_false ?_ (hnone hreach)
    rintro ⟨_, ⟨⟩, _⟩
  | reversed hrows hcolumns =>
    refine iff_of_false ?_ (hnone (inReach_of_covers hrows hcolumns))
    rintro ⟨_, ⟨⟩, hcode⟩
    simp [FormulaError.code] at hcode
  | cells hrows hcolumns =>
    refine iff_of_false ?_ (hnone (inReach_of_covers hrows hcolumns))
    rintro ⟨_, ⟨⟩, _⟩

theorem eq_emptyRange_or_exists {error : FormulaError} (herror : outcome = .error error) :
    error = .emptyRange target ∨ ∃ axis, ¬target.IsVoid axis extent ∧
      ∃ address ∈ target.written axis,
        ∀ context, address.resolve axis context extent = .error error := by
  cases h with
  | fails hvoid hwritten h =>
    cases herror
    exact .inr ⟨_, hvoid, _, hwritten, h⟩
  | reversed =>
    cases herror
    exact .inl rfl
  | void | cells => cases herror

theorem emptyRange_iff :
    outcome = .error (.emptyRange target) ↔
      ∃ r : Rectangle, target.Covers .row extent r.top r.bottom ∧
        target.Covers .column extent r.left r.right ∧ (r.bottom < r.top ∨ r.right < r.left) := by
  constructor
  · rintro rfl
    cases h with
    | @fails axis address _ _ _ h =>
      obtain ⟨_, ⟨⟩⟩ := address.resolve_eq_error (h ⟨0, 0⟩)
    | @reversed r hrows hcolumns hreversed => exact ⟨r, hrows, hcolumns, hreversed⟩
  · rintro ⟨r, hrows, hcolumns, hreversed⟩
    have hnotVoid (axis : Axis) : ¬target.IsVoid axis extent := by
      cases axis with
      | row => exact hrows.not_isVoid
      | column => exact hcolumns.not_isVoid
    cases h with
    | fails hvoid hwritten h =>
      have hinside := (inReach_of_covers hrows hcolumns _).resolve_left hvoid _ hwritten
      exact (hinside (Address.isOutside_of_error h)).elim
    | void hvoid => exact (hnotVoid _ hvoid).elim
    | reversed => rfl
    | @cells r' hrows' hcolumns' htop hleft =>
      obtain ⟨htop', hbottom⟩ := hrows.unique hrows'
      obtain ⟨hleft', hright⟩ := hcolumns.unique hcolumns'
      omega

end Reference.CoversCells

/-- When a target without offsets fails. It does with an address outside the table just if one is
written that is outside, unless the target is open at its beginning on the axis of this address and
finds nothing to begin at there. It fails with an empty range just if there is a first and a last
position on both axes, and on one of them the last is before the first. There are no other errors,
and one about an address is that of resolving an address that is written. -/
theorem Reference.targetCells_fails_iff (hfixed : target.isRelative = false) (extent : Extent) :
    ((∃ error, target.targetCells extent = .error error ∧ error.code = "ADDRESS_OUT_OF_RANGE") ↔
      ∃ axis, ¬target.IsVoid axis extent ∧
        ∃ address ∈ target.written axis, address.IsOutside axis extent) ∧
    (target.targetCells extent = .error (.emptyRange target) ↔
      ∃ r : Rectangle, target.Covers .row extent r.top r.bottom ∧
        target.Covers .column extent r.left r.right ∧ (r.bottom < r.top ∨ r.right < r.left)) ∧
    ∀ error, target.targetCells extent = .error error →
      error = .emptyRange target ∨ ∃ axis, ¬target.IsVoid axis extent ∧
        ∃ address ∈ target.written axis,
          ∀ context, address.resolve axis context extent = .error error := by
  have hcovers := coversCells_targetCells hfixed extent
  refine ⟨hcovers.outOfRange_iff, hcovers.emptyRange_iff, fun error h => ?_⟩
  exact hcovers.eq_emptyRange_or_exists h

/-- The end is behind the last row, and the beginning is open in a table with data rows. -/
theorem Reference.targetCells_fails_iff_outside :
    let target : Reference := .range ⟨none, some (.index 2)⟩ ⟨some (.index 9), none⟩
    target.isRelative = false ∧ (Address.index 9).IsOutside .row ⟨3, 2⟩ ∧
    ∃ error, target.targetCells ⟨3, 2⟩ = .error error ∧ error.code = "ADDRESS_OUT_OF_RANGE" := by
  intro target
  have herror (context : Position) : (Address.index 9).resolve .row context ⟨3, 2⟩ =
      .error (.addressOutOfRange .row (.index 9) 9 3) := rfl
  have houtside : (Address.index 9).IsOutside .row ⟨3, 2⟩ := Address.isOutside_of_error herror
  have hrows : ¬target.IsVoid .row ⟨3, 2⟩ := by
    rintro ⟨_, hsize⟩
    exact absurd hsize (by decide)
  have hfixed : target.isRelative = false := rfl
  refine ⟨hfixed, houtside, ?_⟩
  apply (targetCells_fails_iff hfixed ⟨3, 2⟩).1.mpr
  exact ⟨.row, hrows, .index 9, List.mem_singleton_self _, houtside⟩

/-- In a table with nothing below its header the same end is not looked at, so row nine of one row
is no error. -/
theorem Reference.targetCells_overlooked :
    let target : Reference := .range ⟨none, some (.index 1)⟩ ⟨some (.index 9), some (.index 1)⟩
    let extent : Extent := ⟨1, 1⟩
    target.isRelative = false ∧ Address.index 9 ∈ target.written .row ∧
    (Address.index 9).IsOutside .row extent ∧ target.targetCells extent = .ok [] := by
  intro target extent
  have herror (context : Position) : (Address.index 9).resolve .row context extent =
      .error (.addressOutOfRange .row (.index 9) 9 1) := rfl
  exact ⟨rfl, List.mem_singleton_self _, Address.isOutside_of_error herror, rfl⟩

end TableCalc
