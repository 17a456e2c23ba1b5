import TableCalc.Address.Resolve
import TableCalc.Proofs.Outcome

/-!
The cells of a target. All of them are inside the table, and a target that names one cell by its
position has that cell only.
-/

namespace TableCalc

/-- Membership in a rectangle is membership in its rows and in its columns. -/
theorem Rectangle.mem_positions (r : Rectangle) (p : Position) :
    p ∈ r.positions ↔
      (r.top ≤ p.row ∧ p.row ≤ r.bottom) ∧ (r.left ≤ p.column ∧ p.column ≤ r.right) := by
  have hrange (low high n : Nat) : n ∈ upTo low high ↔ low ≤ n ∧ n ≤ high := by
    rw [upTo, List.mem_range'_1]
    omega
  simp only [positions, List.mem_flatMap, List.mem_map, hrange]
  constructor
  · rintro ⟨row, hrow, column, hcolumn, rfl⟩
    exact ⟨hrow, hcolumn⟩
  · rintro ⟨hrow, hcolumn⟩
    exact ⟨p.row, hrow, p.column, hcolumn, rfl⟩

theorem Rectangle.positions_single (p : Position) :
    Rectangle.positions ⟨p.row, p.column, p.row, p.column⟩ = [p] := by
  have hrange (n : Nat) : upTo n n = [n] := by
    rw [upTo, Nat.add_sub_cancel_left]
    rfl
  simp only [positions, hrange, List.flatMap_cons, List.flatMap_nil, List.map_cons, List.map_nil,
    List.append_nil]

/-- An address is resolved to the position that it means, if that is inside the table. -/
theorem Address.resolve_eq_ok_iff {address : Address} {axis : Axis} {context : Position}
    {extent : Extent} {n : Nat} :
    address.resolve axis context extent = .ok n ↔
      address.meant axis (context.on axis) (extent.on axis) = n ∧ n < extent.on axis := by
  simp only [resolve]
  split
  · next hinside =>
    rw [Except.ok.injEq]
    omega
  · next houtside =>
    constructor
    · intro h
      cases h
    · rintro ⟨hmeant, hn⟩
      exact absurd ⟨by omega, by omega⟩ houtside

theorem Address.resolve_lt {address : Address} {axis : Axis} {context : Position} {extent : Extent}
    {n : Nat} (h : address.resolve axis context extent = .ok n) : n < extent.on axis :=
  (resolve_eq_ok_iff.mp h).2

theorem targetEnd_lt {address : Option Address} {axis : Axis} {extent : Extent}
    {whenOpen : Option Nat} {n : Nat} (hopen : ∀ m, whenOpen = some m → m < extent.on axis)
    (h : targetEnd address axis extent whenOpen = .ok (some n)) : n < extent.on axis := by
  cases address with
  | none => exact hopen n (Except.ok.inj h)
  | some a =>
    obtain ⟨m, hm, hmn⟩ := map_eq_ok_iff.mp h
    cases hmn
    exact Address.resolve_lt hm

/-- What a target covers on an axis is inside the table. -/
theorem targetSpan_lt {start finish : Option Address} {axis : Axis} {extent : Extent}
    {low high : Nat} (h : targetSpan start finish axis extent = .ok (some (low, high))) :
    low < extent.on axis ∧ high < extent.on axis := by
  rw [targetSpan] at h
  obtain ⟨low?, hlow, h⟩ := bind_eq_ok_iff.mp h
  cases low? with
  | none => cases h
  | some low' =>
    obtain ⟨high?, hhigh, h⟩ := bind_eq_ok_iff.mp h
    cases high? with
    | none => cases h
    | some high' =>
      cases h
      constructor
      · refine targetEnd_lt ?_ hlow
        intro m hm
        split at hm
        · cases hm
          assumption
        · cases hm
      · refine targetEnd_lt ?_ hhigh
        intro m hm
        split at hm
        · cases hm
          omega
        · cases hm

/-- Every cell of a target is inside the table. -/
theorem Reference.contains_of_mem_targetCells {target : Reference} {extent : Extent}
    {cells : List Position} (h : target.targetCells extent = .ok cells) {p : Position}
    (hp : p ∈ cells) : extent.Contains p := by
  rw [targetCells] at h
  obtain ⟨rows, hrows, h⟩ := bind_eq_ok_iff.mp h
  obtain ⟨columns, hcolumns, h⟩ := bind_eq_ok_iff.mp h
  cases rows with
  | none =>
    cases h
    cases hp
  | some rows =>
    cases columns with
    | none =>
      cases h
      cases hp
    | some columns =>
      have hbottom := (targetSpan_lt hrows).2
      have hright := (targetSpan_lt hcolumns).2
      dsimp only at h
      split at h
      · cases h
      · cases h
        obtain ⟨⟨_, hrow⟩, ⟨_, hcolumn⟩⟩ := (Rectangle.mem_positions _ p).mp hp
        exact ⟨Nat.lt_of_le_of_lt hrow hbottom, Nat.lt_of_le_of_lt hcolumn hright⟩

/-- A table whose sizes fit signed words of 64 bits, so that every row and column has a number. -/
def Extent.Countable (extent : Extent) : Prop :=
  (extent.rows : Int) ≤ Text.maxInt64 ∧ (extent.columns : Int) ≤ Text.maxInt64

theorem Extent.Countable.on {extent : Extent} (h : extent.Countable) (axis : Axis) :
    (extent.on axis : Int) ≤ Text.maxInt64 := by
  cases axis with
  | row => exact h.1
  | column => exact h.2

/-- A row or column is found again by its number, which counts from one. -/
theorem Address.resolve_index {axis : Axis} {context : Position} {extent : Extent} {n : Nat}
    (hsize : (extent.on axis : Int) ≤ Text.maxInt64) (hn : n < extent.on axis) :
    (Address.index (n + 1)).resolve axis context extent = .ok n := by
  rw [resolve_eq_ok_iff]
  refine ⟨?_, hn⟩
  simp only [meant]
  omega

/-- The cell at a position, named by the numbers of its row and of its column. -/
def Position.toReference (p : Position) : Reference :=
  .cell ⟨some (.index (p.row + 1)), some (.index (p.column + 1))⟩

theorem targetSpan_index {axis : Axis} {extent : Extent} {n : Nat}
    (hsize : (extent.on axis : Int) ≤ Text.maxInt64) (hn : n < extent.on axis) :
    targetSpan (some (.index (n + 1))) (some (.index (n + 1))) axis extent = .ok (some (n, n)) := by
  rw [targetSpan, targetEnd, targetEnd, Address.resolve_index hsize hn]
  rfl

/-- As a target, the cell at a position inside the table is that cell alone. -/
theorem Position.targetCells_toReference {p : Position} {extent : Extent}
    (hextent : extent.Countable) (hp : extent.Contains p) :
    p.toReference.targetCells extent = .ok [p] := by
  have hrows : targetSpan p.toReference.start.row p.toReference.finish.row .row extent =
      .ok (some (p.row, p.row)) := targetSpan_index (hextent.on .row) hp.1
  have hcolumns : targetSpan p.toReference.start.column p.toReference.finish.column .column extent =
      .ok (some (p.column, p.column)) := targetSpan_index (hextent.on .column) hp.2
  rw [Reference.targetCells, hrows, hcolumns]
  simp only [bind, Except.bind, Nat.lt_irrefl, or_self, if_false, Rectangle.positions_single]

end TableCalc
