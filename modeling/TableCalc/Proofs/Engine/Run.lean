import TableCalc.Engine
import TableCalc.Proofs.Address.Target
import TableCalc.Proofs.Table.Cells

/-!
Runs of formulas as sequences of writes. No write changes the size of the table, so every target
covers the cells that it covers on the table at the start. What one write does to a table, and what
composes, is therefore what a whole run does.
-/

namespace TableCalc

/-- The cells that a formula writes on a table of the given size; none if its target is in error. -/
def Formula.targets (formula : Formula) (extent : Extent) : List Position :=
  (formula.target.targetCells extent).toOption.getD []

theorem Formula.targets_eq {formula : Formula} {extent : Extent} {cells : List Position}
    (h : formula.target.targetCells extent = .ok cells) : formula.targets extent = cells := by
  rw [targets, h]
  rfl

theorem Formula.contains_of_mem_targets {formula : Formula} {extent : Extent} {p : Position}
    (hp : p ∈ formula.targets extent) : extent.Contains p := by
  rw [targets] at hp
  cases hcells : formula.target.targetCells extent with
  | error e =>
    rw [hcells] at hp
    cases hp
  | ok cells =>
    rw [hcells] at hp
    exact Reference.contains_of_mem_targetCells hcells hp

namespace Engine

/-- All cells that formulas write on a table of the given size. -/
def targetsOf (formulas : List Formula) (extent : Extent) : List Position :=
  formulas.flatMap fun formula => (formula.target.targetCells extent).toOption.getD []

theorem targetsOf_cons (formula : Formula) (rest : List Formula) (extent : Extent) :
    targetsOf (formula :: rest) extent = formula.targets extent ++ targetsOf rest extent := rfl

theorem targetsOf_singleton (formula : Formula) (extent : Extent) :
    targetsOf [formula] extent = formula.targets extent := List.append_nil _

theorem mem_targetsOf {formulas : List Formula} {extent : Extent} {p : Position} :
    p ∈ targetsOf formulas extent ↔
      ∃ formula ∈ formulas, ∃ cells, formula.target.targetCells extent = .ok cells ∧ p ∈ cells := by
  rw [targetsOf, List.mem_flatMap]
  refine exists_congr fun formula => and_congr_right fun _ => ?_
  cases formula.target.targetCells extent with
  | error e => simp [Except.toOption]
  | ok cells => simp [Except.toOption]

variable {engine : Engine} {formula : Formula} {before after : Table}

theorem apply_singleton (engine : Engine) (formula : Formula) (table : Table) :
    engine.apply [formula] table = engine.applyFormula table formula :=
  bind_pure (engine.applyFormula table formula)

theorem apply_cons_eq_ok_iff {rest : List Formula} :
    engine.apply (formula :: rest) before = .ok after ↔
      ∃ next, engine.applyFormula before formula = .ok next ∧
        engine.apply rest next = .ok after := by
  rw [apply, List.foldlM_cons]
  exact bind_eq_ok_iff

theorem writeCell_extent {p : Position} (hp : before.extent.Contains p)
    (h : engine.writeCell formula before p = .ok after) : after.extent = before.extent := by
  rw [writeCell] at h
  obtain ⟨value, _, h⟩ := bind_eq_ok_iff.mp h
  cases h
  exact Table.extent_set hp _

section Relation

variable {R : List Position → Table → Table → Prop} (nothing : ∀ t, R [] t t)
  (append : ∀ {first second a b c}, R first a b → R second b c → R (first ++ second) a c)

include nothing append

theorem writeCells_run {cells : List Position} (hcells : ∀ p ∈ cells, before.extent.Contains p)
    (one : ∀ {p t u}, p ∈ cells → t.extent = before.extent →
      engine.writeCell formula t p = .ok u → R [p] t u)
    (h : cells.foldlM (engine.writeCell formula) before = .ok after) :
    R cells before after ∧ after.extent = before.extent := by
  induction cells generalizing before with
  | nil =>
    cases h
    exact ⟨nothing _, rfl⟩
  | cons p rest ih =>
    rw [List.foldlM_cons] at h
    obtain ⟨next, hnext, h⟩ := bind_eq_ok_iff.mp h
    have hextent := writeCell_extent (hcells p List.mem_cons_self) hnext
    obtain ⟨hrest, hafter⟩ := ih
      (fun q hq => hextent ▸ hcells q (List.mem_cons_of_mem p hq))
      (fun hq ht => one (List.mem_cons_of_mem p hq) (ht.trans hextent)) h
    exact ⟨append (one List.mem_cons_self rfl hnext) hrest, hafter.trans hextent⟩

/-- Every target of a run that succeeds is found on the table at the start, and what holds of each
write and of no writes at all, and composes, holds of the run. -/
theorem apply_run {formulas : List Formula}
    (one : ∀ {formula p t u}, formula ∈ formulas → p ∈ formula.targets before.extent →
      t.extent = before.extent → engine.writeCell formula t p = .ok u → R [p] t u)
    (h : engine.apply formulas before = .ok after) :
    (∀ formula ∈ formulas, ∃ cells, formula.target.targetCells before.extent = .ok cells) ∧
      R (targetsOf formulas before.extent) before after ∧ after.extent = before.extent := by
  induction formulas generalizing before with
  | nil =>
    cases h
    exact ⟨fun _ hmem => (List.not_mem_nil hmem).elim, nothing _, rfl⟩
  | cons formula rest ih =>
    obtain ⟨next, hnext, h⟩ := apply_cons_eq_ok_iff.mp h
    rw [applyFormula] at hnext
    obtain ⟨cells, hcells, hnext⟩ := bind_eq_ok_iff.mp hnext
    have htargets := Formula.targets_eq hcells
    obtain ⟨hfirst, hextent⟩ := writeCells_run nothing append
      (fun p hp => Reference.contains_of_mem_targetCells hcells hp)
      (fun hp => one List.mem_cons_self (by rwa [htargets])) hnext
    rw [← hextent] at one
    obtain ⟨hfound, hrest, hafter⟩ := ih
      (fun hmem hp ht => one (List.mem_cons_of_mem formula hmem) hp ht) h
    rw [hextent] at hfound hrest hafter
    refine ⟨?_, ?_, hafter⟩
    · intro other hmem
      cases hmem with
      | head => exact ⟨cells, hcells⟩
      | tail _ hmem => exact hfound other hmem
    · rw [targetsOf_cons, htargets]
      exact append hfirst hrest

end Relation

end Engine

end TableCalc
