import TableCalc.Proofs.Address.Errors
import TableCalc.Proofs.Address.Exact

/-!
Addresses for a cell that is moved down and to the right. Along an axis on which cells are moved,
offsets and open coordinates move along; along any other one, every address stays what it means but
those that count from the end. All of this is only so where the address means a cell before the move:
out of reach there, it may come within the larger table.
-/

namespace TableCalc

/-- How far cells are moved. There is no moving up or to the left: the first cell of a table would
have no place. -/
structure Shift where
  down : Nat
  right : Nat
deriving DecidableEq, Repr

def Shift.on (shift : Shift) : Axis → Nat
  | .row => shift.down
  | .column => shift.right

def Position.moved (shift : Shift) (p : Position) : Position :=
  ⟨p.row + shift.down, p.column + shift.right⟩

def Rectangle.moved (shift : Shift) (r : Rectangle) : Rectangle :=
  ⟨r.top + shift.down, r.left + shift.right, r.bottom + shift.down, r.right + shift.right⟩

theorem Position.on_moved (shift : Shift) (p : Position) (axis : Axis) :
    (p.moved shift).on axis = p.on axis + shift.on axis := by
  cases axis with
  | row => rfl
  | column => rfl

/-- An address that moves along when cells are moved by `n` on its axis. -/
def Address.MovesBy (n : Nat) : Address → Prop
  | .offset _ => True
  | .last => False
  | .index _ | .first | .anchor => n = 0

instance (n : Nat) : DecidablePred (Address.MovesBy n)
  | .offset _ => inferInstanceAs (Decidable True)
  | .last => inferInstanceAs (Decidable False)
  | .index _ | .first | .anchor => inferInstanceAs (Decidable (n = 0))

/-- A cell reference whose coordinates move along; open ones always do. -/
structure CellRef.MovesBy (shift : Shift) (cell : CellRef) : Prop where
  row : ∀ a ∈ cell.row, a.MovesBy shift.down
  column : ∀ a ∈ cell.column, a.MovesBy shift.right

structure Reference.MovesBy (shift : Shift) (reference : Reference) : Prop where
  start : reference.start.MovesBy shift
  finish : reference.finish.MovesBy shift

instance (shift : Shift) (cell : CellRef) : Decidable (cell.MovesBy shift) :=
  decidable_of_iff
    ((∀ a ∈ cell.row, a.MovesBy shift.down) ∧ ∀ a ∈ cell.column, a.MovesBy shift.right)
    ⟨fun h => ⟨h.1, h.2⟩, fun h => ⟨h.row, h.column⟩⟩

instance (shift : Shift) (reference : Reference) : Decidable (reference.MovesBy shift) :=
  decidable_of_iff (reference.start.MovesBy shift ∧ reference.finish.MovesBy shift)
    ⟨fun h => ⟨h.1, h.2⟩, fun h => ⟨h.start, h.finish⟩⟩

/-- After the move, a table of the first size has its place in a table of the other size. -/
structure Extent.FitsInto (shift : Shift) (extent wide : Extent) : Prop where
  rows : extent.rows + shift.down ≤ wide.rows
  columns : extent.columns + shift.right ≤ wide.columns

instance (shift : Shift) (extent wide : Extent) : Decidable (extent.FitsInto shift wide) :=
  decidable_of_iff (extent.rows + shift.down ≤ wide.rows ∧
    extent.columns + shift.right ≤ wide.columns) ⟨fun h => ⟨h.1, h.2⟩, fun h => ⟨h.rows, h.columns⟩⟩

/-- The second outcome is the first one, unless that is an address outside the table. -/
def SameUnlessOutside {α : Type} (x y : Except FormulaError α) : Prop :=
  (∀ error, x = .error error → error.code ≠ "ADDRESS_OUT_OF_RANGE") → y = x

namespace SameUnlessOutside

variable {α β : Type}

theorem refl (x : Except FormulaError α) : SameUnlessOutside x x := fun _ => rfl

/-- The first step of a calculation is outside the table only if the calculation is. -/
theorem bind {x : Except FormulaError α} {y : Except FormulaError β} {move : α → β} {γ : Type}
    {f : α → Except FormulaError γ} {g : β → Except FormulaError γ}
    (h : SameUnlessOutside (move <$> x) y)
    (hnext : ∀ a, x = .ok a → SameUnlessOutside (f a) (g (move a))) :
    SameUnlessOutside (x >>= f) (y >>= g) := by
  intro hinside
  cases x with
  | error error =>
    rw [h fun e he => hinside e (bind_eq_error_iff.mpr (.inl (map_eq_error_iff.mp he)))]
    rfl
  | ok a =>
    have hy : y = .ok (move a) := h (by rintro _ ⟨⟩)
    rw [hy]
    exact hnext a rfl hinside

theorem bind_same {x y : Except FormulaError α} {f g : α → Except FormulaError β}
    (h : SameUnlessOutside x y) (hnext : ∀ a, x = .ok a → SameUnlessOutside (f a) (g a)) :
    SameUnlessOutside (x >>= f) (y >>= g) := by
  have hmove : SameUnlessOutside (id <$> x) y := by rwa [id_map]
  exact hmove.bind hnext

end SameUnlessOutside

namespace Extent.FitsInto

variable {shift : Shift} {extent wide : Extent} (hfits : extent.FitsInto shift wide)
  (hsize : wide.Countable) {context : Position}

include hfits

theorem on (axis : Axis) : extent.on axis + shift.on axis ≤ wide.on axis := by
  cases axis with
  | row => exact hfits.rows
  | column => exact hfits.columns

include hsize

/-- The position that is meant moves along with the cell that is being computed. No bound of 64 bits
is met in a table whose rows and columns have numbers. -/
theorem resolve_address {address : Address} {axis : Axis} (hmoves : address.MovesBy (shift.on axis))
    {n : Nat} (h : address.resolve axis context extent = .ok n) :
    address.resolve axis (context.moved shift) wide = .ok (n + shift.on axis) := by
  have hroom := hfits.on axis
  have hcount := hsize.on axis
  rw [Address.resolve_eq_ok_iff] at h ⊢
  obtain ⟨hmeant, hn⟩ := h
  refine ⟨?_, by omega⟩
  rw [Position.on_moved]
  cases address with
  | last => exact hmoves.elim
  | offset k =>
    -- The position is inside the table before and after, so it is not cut off at 64 bits.
    have hlow : Text.minInt64 < 0 := by decide
    simp only [Address.meant, Text.clampInt64] at hmeant ⊢
    omega
  | index m | first =>
    have hstays : shift.on axis = 0 := hmoves
    simp only [Address.meant] at hmeant ⊢
    omega
  | anchor =>
    have hstays : shift.on axis = 0 := hmoves
    rw [hstays]
    exact hmeant

theorem resolve_coordinate {address : Option Address} (axis : Axis)
    (hmoves : ∀ a ∈ address, a.MovesBy (shift.on axis)) :
    SameUnlessOutside ((· + shift.on axis) <$> resolveCoordinate address axis context extent)
      (resolveCoordinate address axis (context.moved shift) wide) := by
  intro hinside
  cases address with
  | none => exact congrArg Except.ok (context.on_moved shift axis)
  | some a =>
    simp only [resolveCoordinate] at hinside ⊢
    cases h : a.resolve axis context extent with
    | error error =>
      rw [h] at hinside
      obtain ⟨_, rfl⟩ := a.resolve_eq_error h
      exact absurd rfl (hinside _ rfl)
    | ok n => exact hfits.resolve_address hsize (hmoves a rfl) h

theorem resolve_cell {cell : CellRef} (hmoves : cell.MovesBy shift) :
    SameUnlessOutside (Position.moved shift <$> cell.resolve context extent)
      (cell.resolve (context.moved shift) wide) := by
  rw [CellRef.resolve, map_bind]
  refine (hfits.resolve_coordinate hsize .row hmoves.row).bind fun row _ => ?_
  rw [map_bind]
  exact (hfits.resolve_coordinate hsize .column hmoves.column).bind fun column _ => .refl _

/-- A reference means the cells moved along, or fails alike, unless it is out of reach. -/
theorem resolve_reference {reference : Reference} (hmoves : reference.MovesBy shift) :
    SameUnlessOutside (Rectangle.moved shift <$> reference.resolve context extent)
      (reference.resolve (context.moved shift) wide) := by
  cases reference with
  | cell cell =>
    rw [Reference.resolve, map_bind]
    exact (hfits.resolve_cell hsize hmoves.start).bind fun p _ => .refl _
  | range start finish =>
    rw [Reference.resolve, map_bind]
    refine (hfits.resolve_cell hsize hmoves.start).bind fun low _ => ?_
    rw [map_bind]
    refine (hfits.resolve_cell hsize hmoves.finish).bind fun high _ => ?_
    have hempty : ((high.moved shift).row < (low.moved shift).row ∨
        (high.moved shift).column < (low.moved shift).column) ↔
        (high.row < low.row ∨ high.column < low.column) := by
      simp only [Position.moved, Nat.add_lt_add_iff_right]
    simp only [hempty]
    split
    · exact .refl _
    · exact .refl _

end Extent.FitsInto

end TableCalc
