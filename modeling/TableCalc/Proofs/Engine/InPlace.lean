import TableCalc.Engine
import TableCalc.Proofs.Outcome

/-!
Evaluation on a table that belongs to someone else. Formulas are applied in place, and what they
wrote before one of them failed stays written, so an evaluation works on a copy and replaces the
table only once everything has succeeded. This program is shown to be `Engine.evaluate`, with the
table as it was where that one fails.
-/

namespace TableCalc

/-- A program on a table. It leaves a table behind whether it fails or not. -/
abbrev InPlace := ExceptT FormulaError (StateM Table)

theorem InPlace.bind_apply {α β : Type} (program : InPlace α) (next : α → InPlace β)
    (table : Table) :
    (program >>= next) table =
      match program table with
      | (.ok a, after) => next a after
      | (.error error, after) => (.error error, after) := by
  simp only [bind, ExceptT.bind, ExceptT.mk, StateT.bind, ExceptT.bindCont]
  cases program table with
  | mk result after => cases result <;> rfl

theorem InPlace.lift_apply {α : Type} (result : Except FormulaError α) (table : Table) :
    (liftM result : InPlace α) table = (result, table) := rfl

theorem InPlace.get_apply (table : Table) : (get : InPlace Table) table = (.ok table, table) := rfl

namespace Engine

/-- Writes the result of a formula into one cell. -/
def writeCellInPlace (engine : Engine) (formula : Formula) (position : Position) :
    InPlace Unit := do
  let value ← engine.eval (← get) position formula.expr
  modify fun table => table.set position (writtenText formula.display value)

/-- Applies formulas in order. The writes of earlier formulas and of earlier cells stay if a later
one fails. -/
def applyInPlace (engine : Engine) (formulas : List Formula) : InPlace Unit :=
  formulas.forM fun formula => do
    let cells ← formula.target.targetCells (← get).extent
    cells.forM (engine.writeCellInPlace formula)

/-- Applies directives to the table of a caller: all of them are read, then they are applied to a
copy, and the copy takes the place of the table if nothing failed. -/
def update (engine : Engine) (directives : List String) : InPlace Unit := do
  let formulas ← Formula.ofDirectives engine.functions directives
  match engine.applyInPlace formulas (← get) with
  | (.ok (), working) => set working
  | (.error error, _) => throw error

/-- A program that ends as a function on tables does: with the same error, or with the table that
the function gives. Nothing is said of the table that a failure leaves behind. -/
def Computes (program : InPlace Unit) (f : Table → Except FormulaError Table) : Prop :=
  ∀ table, (∃ after, f table = .ok after ∧ program table = (.ok (), after)) ∨
    ∃ error left, f table = .error error ∧ program table = (.error error, left)

theorem Computes.forM {ι : Type} {items : List ι} {program : ι → InPlace Unit}
    {f : Table → ι → Except FormulaError Table}
    (h : ∀ item ∈ items, Computes (program item) (f · item)) :
    Computes (items.forM program) (items.foldlM f ·) := by
  induction items with
  | nil =>
    intro table
    exact .inl ⟨table, rfl, rfl⟩
  | cons item rest ih =>
    intro table
    have hforM : (item :: rest).forM program = (do program item; rest.forM program) := rfl
    dsimp only
    rw [List.foldlM_cons, hforM, InPlace.bind_apply]
    rcases h item List.mem_cons_self table with ⟨next, hf, hprogram⟩ | ⟨error, left, hf, hprogram⟩
    · dsimp only at hf
      rw [hf, hprogram]
      exact ih (fun other hother => h other (List.mem_cons_of_mem item hother)) next
    · dsimp only at hf
      rw [hf, hprogram]
      exact .inr ⟨error, left, rfl, rfl⟩

/-- A step that first looks something up in the table, or fails. -/
theorem Computes.lookUp {α : Type} {look : Table → Except FormulaError α}
    {program : α → InPlace Unit} {f : α → Table → Except FormulaError Table}
    (h : ∀ a, Computes (program a) (f a)) :
    Computes (do program (← look (← get))) (fun table => do f (← look table) table) := by
  intro table
  rw [InPlace.bind_apply, InPlace.get_apply]
  dsimp only
  rw [InPlace.bind_apply, InPlace.lift_apply]
  cases look table with
  | ok a => exact h a table
  | error error => exact .inr ⟨error, table, rfl, rfl⟩

theorem writeCellInPlace_computes (engine : Engine) (formula : Formula) (position : Position) :
    Computes (engine.writeCellInPlace formula position) (engine.writeCell formula · position) :=
  Computes.lookUp fun _ _ => .inl ⟨_, rfl, rfl⟩

theorem applyInPlace_computes (engine : Engine) (formulas : List Formula) :
    Computes (engine.applyInPlace formulas) (engine.apply formulas) :=
  Computes.forM fun formula _ => Computes.lookUp fun _ =>
    Computes.forM fun position _ => writeCellInPlace_computes engine formula position

/-- A failing evaluation leaves the caller's table as it was, whatever had been written to the
copy; otherwise the table is the one that `evaluate` gives. -/
theorem update_eq (engine : Engine) (directives : List String) (table : Table) :
    engine.update directives table =
      match engine.evaluate directives table with
      | .ok after => (.ok (), after)
      | .error error => (.error error, table) := by
  rw [update, evaluate, InPlace.bind_apply, InPlace.lift_apply]
  cases Formula.ofDirectives engine.functions directives with
  | error error => rfl
  | ok formulas =>
    dsimp only
    rw [InPlace.bind_apply, InPlace.get_apply]
    rcases applyInPlace_computes engine formulas table with
      ⟨after, hf, hprogram⟩ | ⟨error, left, hf, hprogram⟩
    · simp only [hprogram, bind, Except.bind, hf]
      rfl
    · simp only [hprogram, bind, Except.bind, hf]
      rfl

/-- The error of the first directive that cannot be read. -/
def firstUnreadable (engine : Engine) (directives : List String) : Option FormulaError :=
  directives.findSome? fun directive =>
    match Formula.ofDirective engine.functions directive with
    | .ok _ => none
    | .error error => some error

/-- Directives are read in order: the first one that cannot be read decides, and if there is none
each of them gives its formulas. -/
theorem mapM_ofDirective (engine : Engine) (directives : List String) :
    (∃ error, engine.firstUnreadable directives = some error ∧
      directives.mapM (Formula.ofDirective engine.functions) = .error error) ∨
    ∃ formulas, engine.firstUnreadable directives = none ∧
      directives.mapM (Formula.ofDirective engine.functions) = .ok formulas := by
  induction directives with
  | nil => exact .inr ⟨[], rfl, rfl⟩
  | cons directive rest ih =>
    rw [firstUnreadable, List.findSome?_cons, List.mapM_cons]
    cases Formula.ofDirective engine.functions directive with
    | error error => exact .inl ⟨error, rfl, rfl⟩
    | ok formulas =>
      rcases ih with ⟨error, hfirst, hread⟩ | ⟨more, hfirst, hread⟩
      · exact .inl ⟨error, hfirst, by rw [hread]; rfl⟩
      · exact .inr ⟨formulas :: more, hfirst, by rw [hread]; rfl⟩

theorem evaluate_of_unreadable {engine : Engine} {directives : List String} {error : FormulaError}
    (h : directives.mapM (Formula.ofDirective engine.functions) = .error error) (table : Table) :
    engine.evaluate directives table = .error error := by
  rw [evaluate, Formula.ofDirectives, h]
  rfl

theorem evaluate_of_read {engine : Engine} {directives : List String}
    {formulas : List (List Formula)}
    (h : directives.mapM (Formula.ofDirective engine.functions) = .ok formulas) (table : Table) :
    engine.evaluate directives table = engine.apply formulas.flatten table := by
  rw [evaluate, Formula.ofDirectives, h]
  rfl

/-- All directives of a list are read before any is applied: the first one that cannot be read
decides, whatever the ones before it would do. If all can be read, the list does what its two parts
do one after the other, with the error of the first part that fails. On the table of a caller an
evaluation that fails has no effect, also where the first part succeeded and the second one failed
after it had written some cells. -/
theorem evaluate_append (engine : Engine) (first second : List String) (table : Table) :
    (engine.evaluate (first ++ second) table =
      match engine.firstUnreadable (first ++ second) with
      | some error => .error error
      | none => do engine.evaluate second (← engine.evaluate first table)) ∧
    engine.update (first ++ second) table =
      match engine.evaluate (first ++ second) table with
      | .ok after => (.ok (), after)
      | .error error => (.error error, table) := by
  refine ⟨?_, engine.update_eq (first ++ second) table⟩
  rcases engine.mapM_ofDirective (first ++ second) with
    ⟨error, hfirst, hread⟩ | ⟨formulas, hfirst, hread⟩
  · rw [hfirst, evaluate_of_unreadable hread]
  · rw [hfirst, evaluate_of_read hread]
    rw [List.mapM_append] at hread
    obtain ⟨before, hbefore, hread⟩ := bind_eq_ok_iff.mp hread
    obtain ⟨after, hafter, hread⟩ := bind_eq_ok_iff.mp hread
    cases hread
    have hsecond : engine.evaluate second = engine.apply after.flatten :=
      funext (evaluate_of_read hafter)
    rw [evaluate_of_read hbefore, hsecond, List.flatten_append, apply, List.foldlM_append]
    rfl

end Engine

end TableCalc
