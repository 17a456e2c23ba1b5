import TableCalc.Proofs.Address.Errors
import TableCalc.Proofs.Directive.Calls
import TableCalc.Proofs.Engine.Run

/-!
Where evaluation fails. An expression that has no value fails at one of the expressions that are
evaluated for it, whose own parts all have values; and a run that fails does so at one cell, after
the cells before it were written.
-/

namespace TableCalc.Engine

/-- `engine.Evaluates table p expr node` if the value of `node` is computed for that of `expr`: a
right operand comes after a left one that has a value, and of a condition one branch is left. -/
inductive Evaluates (engine : Engine) (table : Table) (p : Position) : Expr → Expr → Prop where
  | itself (expr : Expr) : Evaluates engine table p expr expr
  | left {op : Operation} {left right node : Expr} (h : Evaluates engine table p left node) :
      Evaluates engine table p (.algebraic op left right) node
  | right {op : Operation} {left right node : Expr} {l : Grid}
      (hleft : engine.eval table p left = .ok l) (h : Evaluates engine table p right node) :
      Evaluates engine table p (.algebraic op left right) node
  | argument {name : String} {argument node : Expr} (h : Evaluates engine table p argument node) :
      Evaluates engine table p (.aggregate name argument) node
  | compared {left right thenBranch elseBranch node : Expr} {comparator : Comparator}
      (h : Evaluates engine table p left node) :
      Evaluates engine table p (.conditional left comparator right thenBranch elseBranch) node
  | comparedTo {left right thenBranch elseBranch node : Expr} {comparator : Comparator} {l : Grid}
      (hleft : engine.eval table p left = .ok l) (h : Evaluates engine table p right node) :
      Evaluates engine table p (.conditional left comparator right thenBranch elseBranch) node
  | branch {left right thenBranch elseBranch node : Expr} {comparator : Comparator} {l r : Grid}
      (hleft : engine.eval table p left = .ok l) (hright : engine.eval table p right = .ok r)
      (hcells : l.isCell = true ∧ r.isCell = true)
      (h : Evaluates engine table p
        (if comparator.holds (compare l.scalar r.scalar) then thenBranch else elseBranch) node) :
      Evaluates engine table p (.conditional left comparator right thenBranch elseBranch) node

/-- `engine.Raises table p expr error` if the parts of an expression have values, but what it does
with them fails. -/
inductive Raises (engine : Engine) (table : Table) (p : Position) : Expr → FormulaError → Prop where
  | reference {reference : Reference} {error : FormulaError}
      (h : reference.resolve p table.extent = .error error) :
      Raises engine table p (.reference reference) error
  | algebraic {op : Operation} {left right : Expr} {l r : Grid} {error : FormulaError}
      (hleft : engine.eval table p left = .ok l) (hright : engine.eval table p right = .ok r)
      (h : op.apply engine.quotientDigits l r = .error error) :
      Raises engine table p (.algebraic op left right) error
  | aggregate {name : String} {argument : Expr} {input : Grid} {error : FormulaError}
      (hargument : engine.eval table p argument = .ok input)
      (h : engine.functions.call engine.quotientDigits name input = .error error) :
      Raises engine table p (.aggregate name argument) error
  | conditional {left right thenBranch elseBranch : Expr} {comparator : Comparator} {l r : Grid}
      (hleft : engine.eval table p left = .ok l) (hright : engine.eval table p right = .ok r)
      (hcells : ¬ (l.isCell = true ∧ r.isCell = true)) :
      Raises engine table p (.conditional left comparator right thenBranch elseBranch)
        .comparedRange

variable {engine : Engine} {table : Table} {p : Position}

theorem Raises.eval_eq_error {expr : Expr} {error : FormulaError}
    (h : engine.Raises table p expr error) : engine.eval table p expr = .error error := by
  cases h with
  | reference h => exact bind_eq_error_iff.mpr (.inl h)
  | algebraic hleft hright h =>
    exact bind_eq_error_iff.mpr (.inr ⟨_, hleft, bind_eq_error_iff.mpr (.inr ⟨_, hright, h⟩)⟩)
  | aggregate hargument h => exact bind_eq_error_iff.mpr (.inr ⟨_, hargument, h⟩)
  | @conditional _ _ _ _ _ l r hleft hright hcells =>
    have hranges : (!l.isCell || !r.isCell) = true := by
      simpa using Classical.not_and_iff_not_or_not.mp hcells
    refine bind_eq_error_iff.mpr (.inr ⟨l, hleft, bind_eq_error_iff.mpr (.inr ⟨r, hright, ?_⟩)⟩)
    rw [if_pos hranges]

theorem Evaluates.eval_eq_error {expr node : Expr} {error : FormulaError}
    (h : engine.Evaluates table p expr node) (hnode : engine.eval table p node = .error error) :
    engine.eval table p expr = .error error := by
  induction h with
  | itself => exact hnode
  | left _ ih => exact bind_eq_error_iff.mpr (.inl (ih hnode))
  | right hleft _ ih =>
    exact bind_eq_error_iff.mpr (.inr ⟨_, hleft, bind_eq_error_iff.mpr (.inl (ih hnode))⟩)
  | argument _ ih => exact bind_eq_error_iff.mpr (.inl (ih hnode))
  | compared _ ih => exact bind_eq_error_iff.mpr (.inl (ih hnode))
  | comparedTo hleft _ ih =>
    exact bind_eq_error_iff.mpr (.inr ⟨_, hleft, bind_eq_error_iff.mpr (.inl (ih hnode))⟩)
  | branch hleft hright hcells _ ih =>
    refine bind_eq_error_iff.mpr (.inr ⟨_, hleft, bind_eq_error_iff.mpr (.inr ⟨_, hright, ?_⟩)⟩)
    rw [if_neg (by simp [hcells])]
    have hbranch := ih hnode
    split
    · next hholds => rwa [if_pos hholds] at hbranch
    · next hfails => rwa [if_neg hfails] at hbranch

/-- The first part without a value is where an expression fails; if all have one, it fails itself. -/
theorem exists_raises {expr : Expr} {error : FormulaError}
    (h : engine.eval table p expr = .error error) :
    ∃ node, engine.Evaluates table p expr node ∧ engine.Raises table p node error := by
  induction expr with
  | literal text => cases h
  | reference reference =>
    rcases bind_eq_error_iff.mp h with hresolve | ⟨_, _, h⟩
    · exact ⟨_, .itself _, .reference hresolve⟩
    · cases h
  | algebraic op left right ihleft ihright =>
    rcases bind_eq_error_iff.mp h with hleft | ⟨l, hleft, h⟩
    · obtain ⟨node, hnode, hraises⟩ := ihleft hleft
      exact ⟨node, .left hnode, hraises⟩
    · rcases bind_eq_error_iff.mp h with hright | ⟨r, hright, h⟩
      · obtain ⟨node, hnode, hraises⟩ := ihright hright
        exact ⟨node, .right hleft hnode, hraises⟩
      · exact ⟨_, .itself _, .algebraic hleft hright h⟩
  | aggregate name argument ih =>
    rcases bind_eq_error_iff.mp h with hargument | ⟨input, hargument, h⟩
    · obtain ⟨node, hnode, hraises⟩ := ih hargument
      exact ⟨node, .argument hnode, hraises⟩
    · exact ⟨_, .itself _, .aggregate hargument h⟩
  | conditional left comparator right thenBranch elseBranch ihleft ihright ihthen ihelse =>
    rcases bind_eq_error_iff.mp h with hleft | ⟨l, hleft, h⟩
    · obtain ⟨node, hnode, hraises⟩ := ihleft hleft
      exact ⟨node, .compared hnode, hraises⟩
    · rcases bind_eq_error_iff.mp h with hright | ⟨r, hright, h⟩
      · obtain ⟨node, hnode, hraises⟩ := ihright hright
        exact ⟨node, .comparedTo hleft hnode, hraises⟩
      · split at h
        · next hranges =>
          cases h
          refine ⟨_, .itself _, .conditional hleft hright ?_⟩
          rintro ⟨hl, hr⟩
          simp [hl, hr] at hranges
        · next hcells =>
          have hcells : l.isCell = true ∧ r.isCell = true := by simpa using hcells
          split at h
          · next hholds =>
            obtain ⟨node, hnode, hraises⟩ := ihthen h
            exact ⟨node, .branch hleft hright hcells (by rwa [if_pos hholds]), hraises⟩
          · next hfails =>
            obtain ⟨node, hnode, hraises⟩ := ihelse h
            exact ⟨node, .branch hleft hright hcells (by rwa [if_neg hfails]), hraises⟩

/-- An expression fails just if one that is evaluated for it does so of itself. -/
theorem eval_eq_error_iff {expr : Expr} {error : FormulaError} :
    engine.eval table p expr = .error error ↔
      ∃ node, engine.Evaluates table p expr node ∧ engine.Raises table p node error :=
  ⟨exists_raises, fun ⟨_, hnode, hraises⟩ => hnode.eval_eq_error hraises.eval_eq_error⟩

theorem Evaluates.callable {registry : Registry} {expr node : Expr}
    (h : engine.Evaluates table p expr node) (hexpr : expr.Callable registry) :
    node.Callable registry := by
  induction h with
  | itself => exact hexpr
  | left _ ih => exact ih (List.forall_mem_append.mp hexpr).1
  | right _ _ ih => exact ih (List.forall_mem_append.mp hexpr).2
  | argument _ ih => exact ih (List.forall_mem_cons.mp hexpr).2
  | compared _ ih =>
    exact ih (List.forall_mem_append.mp (List.forall_mem_append.mp hexpr).1).1
  | comparedTo _ _ ih =>
    exact ih (List.forall_mem_append.mp (List.forall_mem_append.mp hexpr).1).2
  | branch _ _ _ _ ih =>
    obtain ⟨hthen, helse⟩ := List.forall_mem_append.mp (List.forall_mem_append.mp hexpr).2
    apply ih
    split
    · exact hthen
    · exact helse

/-- `engine.ComesTo formulas before formula now p` if a run of formulas that starts on the table
`before` comes to compute the cell `p` of `formula` when it has made the table into `now`. -/
def ComesTo (engine : Engine) (formulas : List Formula) (before : Table) (formula : Formula)
    (now : Table) (p : Position) : Prop :=
  ∃ done rest between written more,
    formulas = done ++ formula :: rest ∧ engine.apply done before = .ok between ∧
      formula.target.targetCells between.extent = .ok (written ++ p :: more) ∧
      written.foldlM (engine.writeCell formula) between = .ok now

theorem writeCell_eq_error_iff {formula : Formula} {error : FormulaError} :
    engine.writeCell formula table p = .error error ↔
      engine.eval table p formula.expr = .error error := by
  rw [writeCell, bind_eq_error_iff]
  refine or_iff_left ?_
  rintro ⟨_, _, h⟩
  cases h

/-- A run that fails has a target in error, or it comes to a cell that has no value. -/
theorem apply_eq_error {formulas : List Formula} {before : Table} {error : FormulaError}
    (h : engine.apply formulas before = .error error) :
    error.IsOfCells ∨ ∃ formula ∈ formulas, ∃ now p, engine.ComesTo formulas before formula now p ∧
      engine.eval now p formula.expr = .error error := by
  obtain ⟨done, formula, rest, between, rfl, hdone, h⟩ := foldlM_eq_error_iff.mp h
  rcases bind_eq_error_iff.mp h with htarget | ⟨cells, htarget, h⟩
  · exact .inl (Reference.isOfCells_of_targetCells htarget)
  · obtain ⟨written, p, more, now, rfl, hwritten, h⟩ := foldlM_eq_error_iff.mp h
    exact .inr ⟨formula, by simp, now, p, ⟨done, rest, between, written, more, rfl, hdone, htarget,
      hwritten⟩, writeCell_eq_error_iff.mp h⟩

end TableCalc.Engine
