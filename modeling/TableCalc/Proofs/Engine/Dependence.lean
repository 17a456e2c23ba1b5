import TableCalc.Proofs.Engine.Frame

/-!
What the outcome of a formula depends on: the size of the table and the texts of the cells that its
references cover. Two tables that agree there give the same value or the same error, and agree on
the cells that are written as well. Tables of two sizes do the same for a formula that succeeds, if
its target and its references mean the same cells in both.
-/

namespace TableCalc

/-- The references of an expression, with those of both branches of a condition. -/
def Expr.references : Expr → List Reference
  | .literal _ => []
  | .reference r => [r]
  | .algebraic _ left right => left.references ++ right.references
  | .aggregate _ argument => argument.references
  | .conditional left _ right thenBranch elseBranch =>
      left.references ++ right.references ++ (thenBranch.references ++ elseBranch.references)

/-- The cells that a reference covers for the cell at `context`; none if it cannot be resolved. -/
def Reference.cells (reference : Reference) (context : Position) (extent : Extent) :
    List Position :=
  ((reference.resolve context extent).toOption.map Rectangle.positions).getD []

/-- The cells that the references of an expression cover for the cell at `context`. -/
def Expr.reads (expr : Expr) (context : Position) (extent : Extent) : List Position :=
  expr.references.flatMap fun reference => reference.cells context extent

/-- The cells that a formula reads for any cell of its target. -/
def Formula.reads (formula : Formula) (extent : Extent) : List Position :=
  (formula.targets extent).flatMap fun p => formula.expr.reads p extent

/-- A formula whose target and references, where they mean cells of a table of the first size, mean
the same cells in a table of the other size. -/
structure Formula.CarriesOver (formula : Formula) (extent other : Extent) : Prop where
  target : ∀ cells, formula.target.targetCells extent = .ok cells →
    formula.target.targetCells other = .ok cells
  references : ∀ reference ∈ formula.expr.references, ∀ p r,
    reference.resolve p extent = .ok r → reference.resolve p other = .ok r

theorem Formula.CarriesOver.refl (formula : Formula) (extent : Extent) :
    formula.CarriesOver extent extent :=
  ⟨fun _ h => h, fun _ _ _ _ h => h⟩

/-- Tables of two sizes that have the same texts in the cells of a kind. -/
structure Table.AgreeAcross (extent other : Extent) (cells : Position → Prop) (t u : Table) :
    Prop where
  left : t.extent = extent
  right : u.extent = other
  text : ∀ p, cells p → t.text p = u.text p

/-- Tables of the given size that have the same texts in the cells of a kind. -/
abbrev Table.AgreeOn (extent : Extent) (cells : Position → Prop) (t u : Table) : Prop :=
  Table.AgreeAcross extent extent cells t u

namespace Table

theorem select_congr {t u : Table} {r : Rectangle}
    (h : ∀ p ∈ r.positions, t.text p = u.text p) : t.select r = u.select r := by
  rw [select, select]
  congr 1
  refine List.map_congr_left fun row hrow => List.map_congr_left fun column hcolumn => h _ ?_
  exact List.mem_flatMap.mpr ⟨row, hrow, List.mem_map.mpr ⟨column, hcolumn, rfl⟩⟩

variable {extent other : Extent} {cells more : Position → Prop} {t u : Table}

theorem AgreeAcross.mono (h : AgreeAcross extent other more t u) (hcells : ∀ p, cells p → more p) :
    AgreeAcross extent other cells t u :=
  ⟨h.left, h.right, fun p hp => h.text p (hcells p hp)⟩

/-- Where the same text is written to both tables, they agree as well. -/
theorem AgreeAcross.set {p : Position} (h : AgreeAcross extent other cells t u)
    (hp : extent.Contains p) (hp' : other.Contains p) (text : String) :
    AgreeAcross extent other (fun q => cells q ∨ q = p) (t.set p text) (u.set p text) := by
  have ht : t.extent.Contains p := h.left ▸ hp
  have hu : u.extent.Contains p := h.right ▸ hp'
  refine ⟨(extent_set ht text).trans h.left, (extent_set hu text).trans h.right, ?_⟩
  intro q hq
  rw [text_set ht, text_set hu]
  split
  · rfl
  · next hne => exact h.text q (hq.resolve_right hne)

theorem AgreeAcross.symm (h : AgreeAcross extent other cells t u) :
    AgreeAcross other extent cells u t :=
  ⟨h.right, h.left, fun p hp => (h.text p hp).symm⟩

theorem Written.agreeOn {written : List Position} (h : Written written t u) :
    AgreeOn t.extent (· ∉ written) t u :=
  ⟨rfl, h.extent, fun p hp => (h.kept p hp).symm⟩

end Table

namespace Engine

variable {engine : Engine} {extent other : Extent} {cells : Position → Prop} {t u t' : Table}

/-- The value of an expression, or its error, depends on the size of the table and on the cells that
its references cover. -/
theorem eval_congr {expr : Expr} {p : Position}
    (h : Table.AgreeOn extent (· ∈ expr.reads p extent) t u) :
    engine.eval t p expr = engine.eval u p expr := by
  induction expr with
  | literal text => rfl
  | reference reference =>
    rw [eval, eval, h.left, h.right]
    cases hresolve : reference.resolve p extent with
    | error e => rfl
    | ok r =>
      have hselect : t.select r = u.select r := by
        apply Table.select_congr
        intro q hq
        apply h.text
        simpa [Expr.reads, Expr.references, Reference.cells, hresolve, Except.toOption] using hq
      exact congrArg (fun g => Except.ok g) hselect
  | algebraic op left right ihleft ihright =>
    have hleft := ihleft (h.mono (by simp +contextual [Expr.reads, Expr.references]))
    have hright := ihright (h.mono (by simp +contextual [Expr.reads, Expr.references]))
    rw [eval, eval, hleft, hright]
  | aggregate name argument ih => rw [eval, eval, ih h]
  | conditional left comparator right thenBranch elseBranch ihleft ihright ihthen ihelse =>
    have hleft := ihleft (h.mono (by simp +contextual [Expr.reads, Expr.references]))
    have hright := ihright (h.mono (by simp +contextual [Expr.reads, Expr.references]))
    have hthen := ihthen (h.mono (by simp +contextual [Expr.reads, Expr.references]))
    have helse := ihelse (h.mono (by simp +contextual [Expr.reads, Expr.references]))
    rw [eval, eval, hleft, hright, hthen, helse]

/-- A value carries over to a table of another size. The branch of a condition that is not chosen
has no part in it, so its references may mean cells in one table only. -/
theorem eval_carriesOver {expr : Expr} {p : Position} {value : Grid}
    (hreferences : ∀ reference ∈ expr.references, ∀ r,
      reference.resolve p extent = .ok r → reference.resolve p other = .ok r)
    (h : Table.AgreeAcross extent other (· ∈ expr.reads p extent) t u)
    (hvalue : engine.eval t p expr = .ok value) : engine.eval u p expr = .ok value := by
  induction expr generalizing value with
  | literal text => exact hvalue
  | reference reference =>
    obtain ⟨r, hr, hvalue⟩ := bind_eq_ok_iff.mp hvalue
    rw [h.left] at hr
    have hselect : t.select r = u.select r := by
      apply Table.select_congr
      intro q hq
      apply h.text
      simpa [Expr.reads, Expr.references, Reference.cells, hr, Except.toOption] using hq
    rw [hselect] at hvalue
    refine bind_eq_ok_iff.mpr ⟨r, ?_, hvalue⟩
    rw [h.right]
    exact hreferences reference List.mem_cons_self r hr
  | algebraic op left right ihleft ihright =>
    simp only [Expr.references, List.forall_mem_append] at hreferences
    obtain ⟨l, hl, hvalue⟩ := bind_eq_ok_iff.mp hvalue
    obtain ⟨r, hr, hvalue⟩ := bind_eq_ok_iff.mp hvalue
    have hl' := ihleft hreferences.1
      (h.mono (by simp +contextual [Expr.reads, Expr.references])) hl
    have hr' := ihright hreferences.2
      (h.mono (by simp +contextual [Expr.reads, Expr.references])) hr
    exact bind_eq_ok_iff.mpr ⟨l, hl', bind_eq_ok_iff.mpr ⟨r, hr', hvalue⟩⟩
  | aggregate name argument ih =>
    obtain ⟨input, hinput, hvalue⟩ := bind_eq_ok_iff.mp hvalue
    exact bind_eq_ok_iff.mpr ⟨input, ih hreferences h hinput, hvalue⟩
  | conditional left comparator right thenBranch elseBranch ihleft ihright ihthen ihelse =>
    simp only [Expr.references, List.forall_mem_append] at hreferences
    obtain ⟨⟨hleft, hright⟩, hthen, helse⟩ := hreferences
    obtain ⟨l, hl, hvalue⟩ := bind_eq_ok_iff.mp hvalue
    obtain ⟨r, hr, hvalue⟩ := bind_eq_ok_iff.mp hvalue
    have hl' := ihleft hleft (h.mono (by simp +contextual [Expr.reads, Expr.references])) hl
    have hr' := ihright hright (h.mono (by simp +contextual [Expr.reads, Expr.references])) hr
    refine bind_eq_ok_iff.mpr ⟨l, hl', bind_eq_ok_iff.mpr ⟨r, hr', ?_⟩⟩
    split at hvalue
    · cases hvalue
    · next hcells =>
      rw [if_neg hcells]
      split at hvalue
      · next hholds =>
        rw [if_pos hholds]
        exact ihthen hthen (h.mono (by simp +contextual [Expr.reads, Expr.references])) hvalue
      · next hfails =>
        rw [if_neg hfails]
        exact ihelse helse (h.mono (by simp +contextual [Expr.reads, Expr.references])) hvalue

theorem writeCell_carriesOver {formula : Formula} {p : Position}
    (hformula : formula.CarriesOver extent other) (h : Table.AgreeAcross extent other cells t u)
    (hp : extent.Contains p) (hp' : other.Contains p)
    (hreads : ∀ q ∈ formula.expr.reads p extent, cells q)
    (hwrite : engine.writeCell formula t p = .ok t') :
    ∃ u', engine.writeCell formula u p = .ok u' ∧
      Table.AgreeAcross extent other (fun q => cells q ∨ q = p) t' u' := by
  obtain ⟨value, hvalue, hwrite⟩ := bind_eq_ok_iff.mp hwrite
  cases hwrite
  have hvalue' := eval_carriesOver
    (fun reference hmem => hformula.references reference hmem p) (h.mono hreads) hvalue
  exact ⟨_, bind_eq_ok_iff.mpr ⟨value, hvalue', rfl⟩, h.set hp hp' _⟩

/-- The cells of a target are computed one after the other on both tables: each of them finds the
tables agreeing on what it reads, also where that was written before. -/
theorem writeCells_carriesOver {formula : Formula} {written : List Position}
    (hformula : formula.CarriesOver extent other) (h : Table.AgreeAcross extent other cells t u)
    (hwritten : ∀ p ∈ written, extent.Contains p ∧ other.Contains p)
    (hreads : ∀ p ∈ written, ∀ q ∈ formula.expr.reads p extent, cells q)
    (hrun : written.foldlM (engine.writeCell formula) t = .ok t') :
    ∃ u', written.foldlM (engine.writeCell formula) u = .ok u' ∧
      Table.AgreeAcross extent other (fun q => cells q ∨ q ∈ written) t' u' := by
  induction written generalizing t u cells with
  | nil =>
    cases hrun
    exact ⟨u, rfl, h.mono (by simp)⟩
  | cons p rest ih =>
    rw [List.foldlM_cons] at hrun ⊢
    rw [List.forall_mem_cons] at hwritten hreads
    obtain ⟨t₁, hfirst, hrun⟩ := bind_eq_ok_iff.mp hrun
    obtain ⟨u₁, hfirst', h₁⟩ := writeCell_carriesOver hformula h hwritten.1.1 hwritten.1.2
      hreads.1 hfirst
    obtain ⟨u', hrest', h'⟩ := ih h₁ hwritten.2 (fun q hq r hr => .inl (hreads.2 q hq r hr)) hrun
    refine ⟨u', bind_eq_ok_iff.mpr ⟨u₁, hfirst', hrest'⟩, h'.mono ?_⟩
    simp only [List.mem_cons, or_assoc, imp_self, implies_true]

/-- A formula that carries over does the same on tables that agree on what it reads, and they then
agree on what it wrote. -/
theorem applyFormula_carriesOver {formula : Formula} (hformula : formula.CarriesOver extent other)
    (h : Table.AgreeAcross extent other cells t u) (hreads : ∀ q ∈ formula.reads extent, cells q)
    (hrun : engine.applyFormula t formula = .ok t') :
    ∃ u', engine.applyFormula u formula = .ok u' ∧
      Table.AgreeAcross extent other (fun q => cells q ∨ q ∈ formula.targets extent) t' u' := by
  rw [applyFormula, h.left] at hrun
  obtain ⟨written, hwritten, hrun⟩ := bind_eq_ok_iff.mp hrun
  have hwritten' := hformula.target written hwritten
  rw [applyFormula, h.right, hwritten', Formula.targets_eq hwritten]
  refine writeCells_carriesOver hformula h
    (fun p hp => ⟨Reference.contains_of_mem_targetCells hwritten hp,
      Reference.contains_of_mem_targetCells hwritten' hp⟩) ?_ hrun
  intro p hp q hq
  rw [← Formula.targets_eq hwritten] at hp
  exact hreads q (List.mem_flatMap.mpr ⟨p, hp, hq⟩)

/-- A formula does the same on tables of one size that agree on what it reads, and they then agree
on what it wrote. -/
theorem applyFormula_congr {formula : Formula} (h : Table.AgreeOn extent cells t u)
    (hreads : ∀ q ∈ formula.reads extent, cells q)
    (hrun : engine.applyFormula t formula = .ok t') :
    ∃ u', engine.applyFormula u formula = .ok u' ∧
      Table.AgreeOn extent (fun q => cells q ∨ q ∈ formula.targets extent) t' u' :=
  applyFormula_carriesOver (.refl formula extent) h hreads hrun

end Engine

end TableCalc
