import TableCalc.Proofs.Address.Moving
import TableCalc.Proofs.Engine.Dependence

/-!
Formulas for a cell that is moved, in a table that holds the other table at the place where it is
moved to. A formula that names its cells by their distance has the same value there.
-/

namespace TableCalc

/-- A table that stands in another one, moved down and to the right. Around it the other table may
hold anything. -/
structure Table.PlacedIn (shift : Shift) (t u : Table) : Prop where
  fits : t.extent.FitsInto shift u.extent
  text : ∀ p, t.extent.Contains p → u.text (p.moved shift) = t.text p

/-- An expression all of whose references move along, also those in a branch that is not chosen. -/
def Expr.MovesBy (shift : Shift) (expr : Expr) : Prop :=
  ∀ reference ∈ expr.references, reference.MovesBy shift

instance (shift : Shift) (expr : Expr) : Decidable (expr.MovesBy shift) :=
  inferInstanceAs (Decidable (∀ reference ∈ expr.references, reference.MovesBy shift))

theorem upTo_add (low high n : Nat) : upTo (low + n) (high + n) = (upTo low high).map (· + n) := by
  have hlength : high + n + 1 - (low + n) = high + 1 - low := by omega
  rw [upTo, upTo, hlength, Nat.add_comm low n, ← List.map_add_range']
  simp only [Nat.add_comm n]

theorem Table.select_moved {shift : Shift} {t u : Table} {r : Rectangle}
    (h : ∀ p ∈ r.positions, u.text (p.moved shift) = t.text p) :
    u.select (r.moved shift) = t.select r := by
  rw [select, select, Rectangle.moved]
  simp only [upTo_add, List.map_map]
  congr 1
  refine List.map_congr_left fun row hrow => List.map_congr_left fun column hcolumn => ?_
  apply h ⟨row, column⟩
  exact List.mem_flatMap.mpr ⟨row, hrow, List.mem_map.mpr ⟨column, hcolumn, rfl⟩⟩

namespace Engine

variable {shift : Shift} {t u : Table} {p : Position}

theorem eval_sameUnlessOutside (engine : Engine) (hplaced : t.PlacedIn shift u)
    (hsize : u.extent.Countable) (hp : t.extent.Contains p) {expr : Expr}
    (hmoves : expr.MovesBy shift) :
    SameUnlessOutside (engine.eval t p expr) (engine.eval u (p.moved shift) expr) := by
  induction expr with
  | literal text => exact .refl _
  | reference reference =>
    have hresolve : SameUnlessOutside (Rectangle.moved shift <$> reference.resolve p t.extent)
        (reference.resolve (p.moved shift) u.extent) :=
      hplaced.fits.resolve_reference hsize (hmoves reference List.mem_cons_self)
    refine hresolve.bind fun r hr => ?_
    have hinside := Reference.contains_of_resolve hp hr
    have hselect : u.select (r.moved shift) = t.select r := by
      apply Table.select_moved
      intro q hq
      obtain ⟨⟨_, hrow⟩, ⟨_, hcolumn⟩⟩ := (Rectangle.mem_positions r q).mp hq
      exact hplaced.text q ⟨Nat.lt_of_le_of_lt hrow hinside.1,
        Nat.lt_of_le_of_lt hcolumn hinside.2⟩
    rw [hselect]
    exact .refl _
  | algebraic op left right ihleft ihright =>
    obtain ⟨hleft, hright⟩ := List.forall_mem_append.mp hmoves
    refine (ihleft hleft).bind_same fun l _ => ?_
    exact (ihright hright).bind_same fun r _ => .refl _
  | aggregate name argument ih => exact (ih hmoves).bind_same fun input _ => .refl _
  | conditional left comparator right thenBranch elseBranch ihleft ihright ihthen ihelse =>
    obtain ⟨hcompared, hbranches⟩ := List.forall_mem_append.mp hmoves
    obtain ⟨hleft, hright⟩ := List.forall_mem_append.mp hcompared
    obtain ⟨hthen, helse⟩ := List.forall_mem_append.mp hbranches
    refine (ihleft hleft).bind_same fun l _ => ?_
    refine (ihright hright).bind_same fun r _ => ?_
    split
    · exact .refl _
    · split
      · exact ihthen hthen
      · exact ihelse helse

/-- Relative formulas may be moved. Where an expression gives a value or fails, other than by an
address outside the table, it gives the same value or fails alike for the cell that is moved, in any
table that holds the table there. On an axis on which cells are moved the expression has offsets and
open coordinates only, and on another one nothing that counts from the end. Sizes beyond signed words
of 64 bits, which no table in memory has, are left out because distances end there. -/
theorem eval_moved (engine : Engine) (hplaced : t.PlacedIn shift u) (hsize : u.extent.Countable)
    (hp : t.extent.Contains p) {expr : Expr} (hmoves : expr.MovesBy shift)
    (hinside : ∀ error, engine.eval t p expr = .error error →
      error.code ≠ "ADDRESS_OUT_OF_RANGE") :
    engine.eval u (p.moved shift) expr = engine.eval t p expr :=
  engine.eval_sameUnlessOutside hplaced hsize hp hmoves hinside

/-- Moved down two rows, into a table with other rows above and below and a wider one. A column is
named by its number, the sum has a blank cell that its row does not have, and the branch that is not
chosen is out of reach in both tables. -/
theorem eval_moved_down :
    let t : Table := ⟨[["A", "B"], ["1", "2"], ["3"]]⟩
    let u : Table := ⟨[["x"], ["y", "z", "w"], ["A", "B"], ["1", "2", "9"], ["3"], ["7"]]⟩
    let shift : Shift := ⟨2, 0⟩
    let p : Position := ⟨2, 1⟩
    let above : CellRef := ⟨some (.offset (-1)), some (.index 1)⟩
    let expr : Expr := .conditional (.reference (.cell above)) .gt (.literal "0")
      (.aggregate "sum" (.reference (.range above ⟨some (.offset 0), none⟩)))
      (.reference (.cell ⟨some (.offset 9), none⟩))
    t.PlacedIn shift u ∧ u.extent.Countable ∧ t.extent.Contains p ∧ expr.MovesBy shift ∧
      standard.eval t p expr = .ok (.single "6") ∧
      standard.eval u ⟨4, 1⟩ expr = standard.eval t p expr := by
  intro t u shift p above expr
  have htext : ∀ row < 3, ∀ column < 2, u.text ⟨row + 2, column⟩ = t.text ⟨row, column⟩ := by
    decide
  have hplaced : t.PlacedIn shift u :=
    ⟨by decide, fun q hq => htext q.row hq.1 q.column hq.2⟩
  have hsize : u.extent.Countable := ⟨by decide, by decide⟩
  have hp : t.extent.Contains p := by decide
  have hmoves : expr.MovesBy shift := by decide
  have hvalue : standard.eval t p expr = .ok (.single "6") := by decide +kernel
  have hmoved := standard.eval_moved hplaced hsize hp hmoves (by simp [hvalue])
  exact ⟨hplaced, hsize, hp, hmoves, hvalue, hmoved⟩

end Engine

end TableCalc
