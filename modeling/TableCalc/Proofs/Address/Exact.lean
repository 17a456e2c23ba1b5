import TableCalc.Proofs.Address.Target

/-!
Addresses as exact integers. Resolving counts in signed words of 64 bits, and what an address means
is cut off at their bounds. In a table whose sizes fit such words this makes a difference for one
address only: a number beyond them, in a table of the greatest size, is taken for the last row or
column. What a reference means is told from its two corners.
-/

namespace TableCalc

/-- The position that an address names, whatever its size. -/
def Address.exact (address : Address) (axis : Axis) (context size : Nat) : Int :=
  match address with
  | .index n => n - 1
  | .offset k => context + k
  | .first => 0
  | .last => size - 1
  | .anchor =>
      match axis with
      | .row => 1
      | .column => 0

/-- A number of a row or column that is beyond signed words of 64 bits, where the table has as many
rows or columns as such words count. -/
def Address.Overflows (address : Address) (size : Nat) : Prop :=
  (size : Int) = Text.maxInt64 ∧ ∃ n : Nat, address = .index n ∧ Text.maxInt64 < n

variable {axis : Axis} {context : Position} {extent : Extent}

/-- An address is resolved to the exact position that it names, if that is inside the table. Offsets
are never cut off into the table, and numbers are in a table of the greatest size alone. -/
theorem Address.resolve_eq_ok_iff_exact {address : Address} {n : Nat}
    (hsize : (extent.on axis : Int) ≤ Text.maxInt64) :
    address.resolve axis context extent = .ok n ↔
      (address.exact axis (context.on axis) (extent.on axis) = n ∧ n < extent.on axis) ∨
        address.Overflows (extent.on axis) ∧ n + 1 = extent.on axis := by
  have hlow : Text.minInt64 < 0 := by decide
  rw [resolve_eq_ok_iff]
  cases address with
  | index m =>
    simp only [meant, exact, Overflows, index.injEq, exists_eq_left']
    omega
  | offset k =>
    simp only [meant, exact, Overflows, Text.clampInt64, reduceCtorEq, false_and, exists_false,
      and_false, or_false]
    omega
  | first | last | anchor =>
    simp only [Overflows, reduceCtorEq, false_and, exists_false, and_false, or_false]
    rfl

/-- The number is one more than the greatest word, and the table has no row for it. It is resolved
to the last row, which has the number before the last one that a word holds. -/
theorem Address.resolve_overflows :
    let extent : Extent := ⟨9223372036854775807, 1⟩
    let address : Address := .index 9223372036854775808
    extent.Countable ∧ extent.Contains ⟨0, 0⟩ ∧
    ¬address.exact .row 0 extent.rows < extent.rows ∧
    address.resolve .row ⟨0, 0⟩ extent = .ok 9223372036854775806 := by
  intro extent address
  have hcountable : extent.Countable := ⟨by decide, by decide⟩
  have hcontains : extent.Contains ⟨0, 0⟩ := ⟨by decide, by decide⟩
  have houtside : ¬address.exact .row 0 extent.rows < extent.rows := by decide
  exact ⟨hcountable, hcontains, houtside, rfl⟩

/-- The position that a coordinate of a source cell names: what is written is resolved, and an open
coordinate is that of the cell that is being computed. -/
inductive StandsAt (axis : Axis) (context : Position) (extent : Extent) :
    Option Address → Nat → Prop
  | written {address : Address} {n : Nat} (h : address.resolve axis context extent = .ok n) :
      StandsAt axis context extent (some address) n
  | opened : StandsAt axis context extent none (context.on axis)

/-- The rectangle between the two corners that a reference names, with at least one cell. -/
structure Reference.Names (reference : Reference) (context : Position) (extent : Extent)
    (r : Rectangle) : Prop where
  top : StandsAt .row context extent reference.start.row r.top
  left : StandsAt .column context extent reference.start.column r.left
  bottom : StandsAt .row context extent reference.finish.row r.bottom
  right : StandsAt .column context extent reference.finish.column r.right
  rows : r.top ≤ r.bottom
  columns : r.left ≤ r.right

theorem resolveCoordinate_eq_ok_iff {address : Option Address} {n : Nat} :
    resolveCoordinate address axis context extent = .ok n ↔
      StandsAt axis context extent address n := by
  constructor
  · intro h
    cases address with
    | none =>
      cases h
      exact .opened
    | some a => exact .written h
  · intro h
    cases h with
    | written h => exact h
    | opened => rfl

theorem StandsAt.lt {address : Option Address} {n : Nat}
    (h : StandsAt axis context extent address n) (hcontext : context.on axis < extent.on axis) :
    n < extent.on axis := by
  cases h with
  | written h => exact Address.resolve_lt h
  | opened => exact hcontext

theorem CellRef.resolve_eq_ok_iff {cell : CellRef} {p : Position} :
    cell.resolve context extent = .ok p ↔
      StandsAt .row context extent cell.row p.row ∧
        StandsAt .column context extent cell.column p.column := by
  simp only [← resolveCoordinate_eq_ok_iff]
  constructor
  · intro h
    obtain ⟨row, hrow, h⟩ := bind_eq_ok_iff.mp h
    obtain ⟨column, hcolumn, h⟩ := bind_eq_ok_iff.mp h
    cases h
    exact ⟨hrow, hcolumn⟩
  · rintro ⟨hrow, hcolumn⟩
    exact bind_eq_ok_iff.mpr ⟨_, hrow, bind_eq_ok_iff.mpr ⟨_, hcolumn, rfl⟩⟩

/-- A reference is resolved to the rectangle that it names. -/
theorem Reference.resolve_eq_ok_iff {reference : Reference} {r : Rectangle} :
    reference.resolve context extent = .ok r ↔ reference.Names context extent r := by
  cases reference with
  | cell cell =>
    constructor
    · intro h
      obtain ⟨p, hp, h⟩ := bind_eq_ok_iff.mp h
      cases h
      obtain ⟨hrow, hcolumn⟩ := CellRef.resolve_eq_ok_iff.mp hp
      exact ⟨hrow, hcolumn, hrow, hcolumn, Nat.le_refl _, Nat.le_refl _⟩
    · intro h
      obtain ⟨top, left, bottom, right⟩ := r
      have hlow := CellRef.resolve_eq_ok_iff (p := ⟨top, left⟩).mpr ⟨h.top, h.left⟩
      have hhigh := CellRef.resolve_eq_ok_iff (p := ⟨bottom, right⟩).mpr ⟨h.bottom, h.right⟩
      -- Both corners are the one cell that is named.
      have hcorners := Except.ok.inj (hlow.symm.trans hhigh)
      rw [Position.mk.injEq] at hcorners
      obtain ⟨rfl, rfl⟩ := hcorners
      exact bind_eq_ok_iff.mpr ⟨_, hlow, rfl⟩
  | range start finish =>
    constructor
    · intro h
      obtain ⟨low, hlow, h⟩ := bind_eq_ok_iff.mp h
      obtain ⟨high, hhigh, h⟩ := bind_eq_ok_iff.mp h
      obtain ⟨htop, hleft⟩ := CellRef.resolve_eq_ok_iff.mp hlow
      obtain ⟨hbottom, hright⟩ := CellRef.resolve_eq_ok_iff.mp hhigh
      split at h
      · cases h
      · next hordered =>
        cases h
        rw [not_or, Nat.not_lt, Nat.not_lt] at hordered
        exact ⟨htop, hleft, hbottom, hright, hordered.1, hordered.2⟩
    · intro h
      have hlow := CellRef.resolve_eq_ok_iff (p := ⟨r.top, r.left⟩).mpr ⟨h.top, h.left⟩
      have hhigh := CellRef.resolve_eq_ok_iff (p := ⟨r.bottom, r.right⟩).mpr ⟨h.bottom, h.right⟩
      refine bind_eq_ok_iff.mpr ⟨_, hlow, bind_eq_ok_iff.mpr ⟨_, hhigh, ?_⟩⟩
      rw [if_neg]
      rw [not_or, Nat.not_lt, Nat.not_lt]
      exact ⟨h.rows, h.columns⟩

/-- The corners of what a reference means are inside the table. -/
theorem Reference.contains_of_resolve {reference : Reference} {r : Rectangle}
    (hcontext : extent.Contains context) (h : reference.resolve context extent = .ok r) :
    r.bottom < extent.rows ∧ r.right < extent.columns := by
  have hnames := resolve_eq_ok_iff.mp h
  exact ⟨hnames.bottom.lt hcontext.1, hnames.right.lt hcontext.2⟩

end TableCalc
