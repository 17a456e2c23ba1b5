import TableCalc.Directive.Parse
import TableCalc.Proofs.Directive.Completeness.Formula
import TableCalc.Proofs.Directive.Meaning

/-!
Directives are parsed by their context-free grammar. Ordered choices, greedy repetitions and the
exception for `if` neither lose a derivable directive nor admit another one, and the order in which
the checks are made does not matter to which directives pass.
-/

namespace TableCalc

open Directive

/-- A derivation of a directive, without the blanks around it, that passes the checks. -/
structure Directive.Derivation (registry : Registry) (directive : String)
    (trees : List FormulaTree) : Prop where
  derives : Grammar.Root (Text.trim directive.toList) trees
  admitted : ∀ tree ∈ trees, tree.Admitted registry

/-- The grammar is unambiguous, but for how a derivation splits gaps. -/
theorem Directive.Grammar.Root.unique {cs : List Char} {ts us : List FormulaTree}
    (ht : Grammar.Root cs ts) (hu : Grammar.Root cs us) : ts = us := by
  have hread := read?_eq_some_iff_root.mpr ht
  rw [read?_eq_some_iff_root.mpr hu] at hread
  exact (Option.some.inj hread).symm

theorem Formula.ofDirective_of_derives {registry : Registry} {directive : String}
    {trees : List FormulaTree} (h : Grammar.Root (Text.trim directive.toList) trees)
    {formulas : List Formula} :
    ofDirective registry directive = .ok formulas ↔
      (∀ tree ∈ trees, tree.Admitted registry) ∧ trees.map FormulaTree.meaning = formulas := by
  have hread := read?_eq_some_iff_root.mpr h
  simp only [ofDirective, hread, mapError_eq_ok_iff]
  exact mapM_toFormula_eq_ok_iff

/-- What is read as formulas is derivable. -/
theorem Formula.root_of_ofDirective {registry : Registry} {directive : String}
    {formulas : List Formula} (h : ofDirective registry directive = .ok formulas) :
    ∃ trees, Grammar.Root (Text.trim directive.toList) trees := by
  cases hread : read? (Text.trim directive.toList) with
  | none =>
    simp only [ofDirective, hread] at h
    cases h
  | some trees => exact ⟨trees, read?_eq_some_iff_root.mp hread⟩

/-- Each formula of several directives is read from one of them. -/
theorem Formula.exists_of_mem_ofDirectives {registry : Registry} {directives : List String}
    {formulas : List Formula} (h : ofDirectives registry directives = .ok formulas)
    {formula : Formula} (hformula : formula ∈ formulas) :
    ∃ directive ∈ directives, ∃ list,
      ofDirective registry directive = .ok list ∧ formula ∈ list := by
  obtain ⟨lists, hlists, heq⟩ := bind_eq_ok_iff.mp h
  cases heq
  obtain ⟨list, hlist, hformula⟩ := List.mem_flatten.mp hformula
  obtain ⟨directive, hdirective, hread⟩ := exists_of_mem_mapM hlists hlist
  exact ⟨directive, hdirective, list, hread, hformula⟩

/-- A directive parses as `formulas` exactly if a derivation that passes the checks builds them, and
all such derivations build the same formulas. -/
theorem Formula.ofDirective_eq_ok_iff_derivation (registry : Registry) (directive : String) :
    (∀ formulas, ofDirective registry directive = .ok formulas ↔
      ∃ trees, Derivation registry directive trees ∧ trees.map FormulaTree.meaning = formulas) ∧
    ∀ trees others, Derivation registry directive trees → Derivation registry directive others →
      trees.map FormulaTree.meaning = others.map FormulaTree.meaning := by
  constructor
  · intro formulas
    constructor
    · intro h
      cases hread : read? (Text.trim directive.toList) with
      | none =>
        simp only [ofDirective, hread] at h
        cases h
      | some trees =>
        have hderives := read?_eq_some_iff_root.mp hread
        obtain ⟨hadmitted, hformulas⟩ := (ofDirective_of_derives hderives).mp h
        exact ⟨trees, ⟨hderives, hadmitted⟩, hformulas⟩
    · rintro ⟨trees, ⟨hderives, hadmitted⟩, hformulas⟩
      exact (ofDirective_of_derives hderives).mpr ⟨hadmitted, hformulas⟩
  · intro trees others htrees hothers
    rw [htrees.derives.unique hothers.derives]

theorem Formula.ofDirective_eq_ok_iff_derivation_comment :
    let formulas : List Formula :=
      [⟨"$3=($1+$2)", .cell ⟨none, some (.index 3)⟩,
          .algebraic .add (.reference (.cell ⟨none, some (.index 1)⟩))
            (.reference (.cell ⟨none, some (.index 2)⟩)), none⟩,
        ⟨"@>$3=@2$3", .cell ⟨some .last, some (.index 3)⟩,
          .reference (.cell ⟨some (.index 2), some (.index 3)⟩), none⟩]
    ∃ trees, Derivation .empty "<!-- TBLFM: $3=($1+$2)::@>$3=@2$3 -->" trees ∧
      trees.map FormulaTree.meaning = formulas := by
  intro formulas
  have h : (ofDirective .empty "<!-- TBLFM: $3=($1+$2)::@>$3=@2$3 -->").toOption =
      some formulas := by
    decide +kernel
  apply ((ofDirective_eq_ok_iff_derivation _ _).1 formulas).mp
  cases hresult : ofDirective .empty "<!-- TBLFM: $3=($1+$2)::@>$3=@2$3 -->" with
  | error e =>
    rw [hresult] at h
    cases h
  | ok parsed =>
    rw [hresult] at h
    exact congrArg Except.ok (Option.some.inj h)

end TableCalc
