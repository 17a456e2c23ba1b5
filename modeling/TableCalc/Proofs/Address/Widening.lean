import TableCalc.Proofs.Address.Target

/-!
Addresses in a table that gets more columns. What does not count from the last column means the same
cells there, and a target does if it is not left open at its right end either. What cannot be
resolved may come to mean something.
-/

namespace TableCalc

/-- A size and one with the same rows and no fewer columns. -/
structure Extent.WidensTo (extent wide : Extent) : Prop where
  rows : wide.rows = extent.rows
  columns : extent.columns ≤ wide.columns

/-- A reference that counts no column from the last one. -/
structure Reference.FixedColumns (reference : Reference) : Prop where
  start : reference.start.column ≠ some .last
  finish : reference.finish.column ≠ some .last

instance (reference : Reference) : Decidable reference.FixedColumns :=
  decidable_of_iff (reference.start.column ≠ some .last ∧ reference.finish.column ≠ some .last)
    ⟨fun h => ⟨h.1, h.2⟩, fun h => ⟨h.start, h.finish⟩⟩

variable {extent wide : Extent} {axis : Axis} {context : Position}

/-- Only the size along the axis of an address counts. -/
theorem Address.resolve_congr (address : Address) (h : wide.on axis = extent.on axis) :
    address.resolve axis context wide = address.resolve axis context extent := by
  rw [resolve, resolve, h]

theorem targetSpan_congr (start finish : Option Address) (h : wide.on axis = extent.on axis) :
    targetSpan start finish axis wide = targetSpan start finish axis extent := by
  have hend (address : Option Address) (whenOpen : Option Nat) :
      targetEnd address axis wide whenOpen = targetEnd address axis extent whenOpen := by
    cases address with
    | none => rfl
    | some a => rw [targetEnd, targetEnd, a.resolve_congr h]
  simp only [targetSpan, hend, h]

theorem Address.resolve_column {address : Address} (hcolumns : extent.columns ≤ wide.columns)
    (hfixed : address ≠ .last) {n : Nat}
    (h : address.resolve .column context extent = .ok n) :
    address.resolve .column context wide = .ok n := by
  have hmeant : address.meant .column (context.on .column) (wide.on .column) =
      address.meant .column (context.on .column) (extent.on .column) := by
    cases address with
    | last => exact absurd rfl hfixed
    | _ => rfl
  rw [resolve_eq_ok_iff] at h ⊢
  rw [hmeant]
  exact ⟨h.1, Nat.lt_of_lt_of_le h.2 hcolumns⟩

namespace Extent.WidensTo

variable (hwide : extent.WidensTo wide)

include hwide

theorem resolve_cell {cell : CellRef} (hfixed : cell.column ≠ some .last) {p : Position}
    (h : cell.resolve context extent = .ok p) : cell.resolve context wide = .ok p := by
  obtain ⟨row, hrow, h⟩ := bind_eq_ok_iff.mp h
  obtain ⟨column, hcolumn, h⟩ := bind_eq_ok_iff.mp h
  have hrow' : resolveCoordinate cell.row .row context wide = .ok row := by
    rw [← hrow]
    cases cell.row with
    | none => rfl
    | some a => exact a.resolve_congr hwide.rows
  have hcolumn' : resolveCoordinate cell.column .column context wide = .ok column := by
    cases haddress : cell.column with
    | none => rwa [haddress] at hcolumn
    | some a =>
      rw [haddress] at hcolumn hfixed
      exact Address.resolve_column hwide.columns (fun hlast => hfixed (congrArg some hlast)) hcolumn
  exact bind_eq_ok_iff.mpr ⟨row, hrow', bind_eq_ok_iff.mpr ⟨column, hcolumn', h⟩⟩

/-- A reference that counts no column from the last one means the same cells in a wider table. -/
theorem resolve_reference {reference : Reference} (hfixed : reference.FixedColumns) {r : Rectangle}
    (h : reference.resolve context extent = .ok r) : reference.resolve context wide = .ok r := by
  cases reference with
  | cell cell =>
    obtain ⟨p, hp, h⟩ := bind_eq_ok_iff.mp h
    exact bind_eq_ok_iff.mpr ⟨p, hwide.resolve_cell hfixed.start hp, h⟩
  | range start finish =>
    obtain ⟨low, hlow, h⟩ := bind_eq_ok_iff.mp h
    obtain ⟨high, hhigh, h⟩ := bind_eq_ok_iff.mp h
    exact bind_eq_ok_iff.mpr ⟨low, hwide.resolve_cell hfixed.start hlow,
      bind_eq_ok_iff.mpr ⟨high, hwide.resolve_cell hfixed.finish hhigh, h⟩⟩

theorem targetEnd_column {address : Option Address} (hfixed : address ≠ some .last)
    {whenOpen whenOpen' end? : Option Nat} (hopen : address = none → whenOpen' = whenOpen)
    (h : targetEnd address .column extent whenOpen = .ok end?) :
    targetEnd address .column wide whenOpen' = .ok end? := by
  cases address with
  | none => exact (congrArg Except.ok (hopen rfl)).trans h
  | some a =>
    obtain ⟨n, hn, h⟩ := map_eq_ok_iff.mp h
    exact map_eq_ok_iff.mpr ⟨n, Address.resolve_column hwide.columns
      (fun hlast => hfixed (congrArg some hlast)) hn, h⟩

/-- The columns of a target that is closed at its right end. An open left end is the first column,
if there is one. -/
theorem targetSpan_column {start finish : Option Address} (hcolumns : 0 < extent.columns)
    (hstart : start ≠ some .last) (hfinish : finish ≠ some .last) (hclosed : finish ≠ none)
    {span : Option (Nat × Nat)} (h : targetSpan start finish .column extent = .ok span) :
    targetSpan start finish .column wide = .ok span := by
  have hfirst : Axis.column.firstTarget < extent.on .column := hcolumns
  have hfirst' : Axis.column.firstTarget < wide.on .column :=
    Nat.lt_of_lt_of_le hcolumns hwide.columns
  rw [targetSpan] at h ⊢
  rw [if_pos hfirst] at h
  rw [if_pos hfirst']
  obtain ⟨low?, hlow, h⟩ := bind_eq_ok_iff.mp h
  refine bind_eq_ok_iff.mpr ⟨low?, hwide.targetEnd_column hstart (fun _ => rfl) hlow, ?_⟩
  cases low? with
  | none => exact h
  | some low =>
    obtain ⟨high?, hhigh, h⟩ := bind_eq_ok_iff.mp h
    exact bind_eq_ok_iff.mpr ⟨high?,
      hwide.targetEnd_column hfinish (fun hnone => absurd hnone hclosed) hhigh, h⟩

/-- A target that counts no column from the last one and is closed at its right end has the same
cells in a wider table. -/
theorem targetCells {target : Reference} (hcolumns : 0 < extent.columns)
    (hfixed : target.FixedColumns) (hclosed : target.finish.column ≠ none) {cells : List Position}
    (h : target.targetCells extent = .ok cells) : target.targetCells wide = .ok cells := by
  have hrowsize : wide.on .row = extent.on .row := hwide.rows
  rw [Reference.targetCells] at h ⊢
  rw [targetSpan_congr _ _ hrowsize]
  obtain ⟨rows, hrows, h⟩ := bind_eq_ok_iff.mp h
  obtain ⟨columns, hspan, h⟩ := bind_eq_ok_iff.mp h
  exact bind_eq_ok_iff.mpr ⟨rows, hrows, bind_eq_ok_iff.mpr
    ⟨columns, hwide.targetSpan_column hcolumns hfixed.start hfixed.finish hclosed hspan, h⟩⟩

end Extent.WidensTo

end TableCalc
