import TableCalc.Function.Aggregate
import TableCalc.Proofs.Directive.Composition

/-!
What evaluation may rely on. Formulas that are read have absolute targets, references that name an
axis, positions from one on, functions that are there and displays within bounds, and their literals
stand in their sources, which stand in the directive one behind the other. A range beside a
comparison sign is refused where it is written as such, but not in parentheses, so the expression
may compare a range.
-/

namespace TableCalc

open Directive

/-- Pieces of a text in order, none of which overlaps the next. -/
def Text.InOrder : List (List Char) → List Char → Prop
  | [], _ => True
  | piece :: rest, cs => ∃ before after, cs = before ++ piece ++ after ∧ InOrder rest after

/-- The addresses that a cell reference writes out. -/
def CellRef.addresses (cell : CellRef) : List Address := cell.row.toList ++ cell.column.toList

def Reference.addresses (r : Reference) : List Address := r.start.addresses ++ r.finish.addresses

/-- Positions are counted from one, and all numbers fit a word. -/
def Address.WellFormed : Address → Prop
  | .index position => 1 ≤ position ∧ position ≤ Text.maxWord
  | .offset distance => Text.minInt64 ≤ distance ∧ distance ≤ Text.maxInt64
  | .first | .last | .anchor => True

/-- A reference to a cell names a row or a column, or both. -/
structure CellRef.WellFormed (cell : CellRef) : Prop where
  named : cell.addresses ≠ []
  addresses : ∀ address ∈ cell.addresses, address.WellFormed

structure Reference.WellFormed (r : Reference) : Prop where
  start : r.start.WellFormed
  finish : r.finish.WellFormed

def Expr.isRange : Expr → Bool
  | .reference r => r.isRange
  | _ => false

/-- Whether an operand of a comparison in an expression is a range. -/
def Expr.comparesRange : Expr → Bool
  | .literal _ | .reference _ => false
  | .algebraic _ left right => left.comparesRange || right.comparesRange
  | .aggregate _ argument => argument.comparesRange
  | .conditional left _ right thenBranch elseBranch =>
      left.isRange || right.isRange || left.comparesRange || right.comparesRange ||
        thenBranch.comparesRange || elseBranch.comparesRange

namespace Directive

/-- A literal that stands in a source: a plain number, or a text without quotes between two
quotes. -/
inductive LiteralIn (source : List Char) : String → Prop where
  | number {cs : List Char} (h : Grammar.Number cs) (hsource : cs <:+: source) :
      LiteralIn source (.ofList cs)
  | text {cs : List Char} (h : Grammar.Quotable cs) (hsource : '"' :: cs ++ ['"'] <:+: source) :
      LiteralIn source (.ofList cs)

/-- A text that is written for an expression. -/
def Writes (cs : List Char) (expr : Expr) : Prop :=
  ∃ tree, Grammar.Operand cs tree ∧ tree.meaning = expr

def InParentheses (cs : List Char) : Prop := ∃ inner, cs = '(' :: inner ++ [')']

/-- A comparison that stands in a source. An operand that is a range is not written as such, but in
parentheses. -/
inductive ComparedIn (source : List Char) (left : Expr) (comparator : Comparator) (right : Expr) :
    Prop where
  | mk {leftText sign spaced rightText : List Char} (hleft : Writes leftText left)
      (hsign : Grammar.Comparison sign comparator) (hspaced : Grammar.Spaced sign spaced)
      (hright : Writes rightText right) (hsource : leftText ++ spaced ++ rightText <:+: source)
      (hleftRange : left.isRange = true → InParentheses leftText)
      (hrightRange : right.isRange = true → InParentheses rightText)

end Directive

/-- An expression that evaluation can rely on, and that is written in a source. -/
inductive Expr.WellFormed (registry : Registry) (source : List Char) : Expr → Prop where
  | literal {text : String} (h : LiteralIn source text) : WellFormed registry source (.literal text)
  | reference {r : Reference} (h : r.WellFormed) : WellFormed registry source (.reference r)
  | algebraic {op : Operation} {left right : Expr} (hleft : WellFormed registry source left)
      (hright : WellFormed registry source right) :
      WellFormed registry source (.algebraic op left right)
  | aggregate {name : String} {argument : Expr}
      (hname : ∃ f, registry.find? name = some f ∧ f.info.name = name)
      (hargument : WellFormed registry source argument) :
      WellFormed registry source (.aggregate name argument)
  | conditional {comparator : Comparator} {left right thenBranch elseBranch : Expr}
      (hcompared : ComparedIn source left comparator right)
      (hleft : WellFormed registry source left) (hright : WellFormed registry source right)
      (hthen : WellFormed registry source thenBranch)
      (helse : WellFormed registry source elseBranch) :
      WellFormed registry source (.conditional left comparator right thenBranch elseBranch)

/-- A formula that evaluation can rely on. -/
structure Formula.WellFormed (registry : Registry) (formula : Formula) : Prop where
  target : formula.target.WellFormed
  target_absolute : ∀ distance, .offset distance ∉ formula.target.addresses
  expr : formula.expr.WellFormed registry formula.source.toList
  places : ∀ places, formula.display = some (.fixed places) → places ≤ 100

theorem CellRef.offset_not_mem_addresses {cell : CellRef} (h : cell.isRelative = false)
    (distance : Int) : .offset distance ∉ cell.addresses := by
  obtain ⟨hrow, hcolumn⟩ := Bool.or_eq_false_iff.mp h
  rw [addresses, List.mem_append, Option.mem_toList, Option.mem_toList]
  rintro (hmem | hmem)
  · rw [Option.mem_def.mp hmem] at hrow
    cases hrow
  · rw [Option.mem_def.mp hmem] at hcolumn
    cases hcolumn

/-- A reference that does not depend on the cell that is being computed has no offset. -/
theorem Reference.offset_not_mem_addresses {r : Reference} (h : r.isRelative = false)
    (distance : Int) : .offset distance ∉ r.addresses := by
  obtain ⟨hstart, hfinish⟩ := Bool.or_eq_false_iff.mp h
  intro hmem
  rcases List.mem_append.mp hmem with hmem | hmem
  · exact CellRef.offset_not_mem_addresses hstart distance hmem
  · exact CellRef.offset_not_mem_addresses hfinish distance hmem

namespace Text.InOrder

variable {pieces : List (List Char)} {cs : List Char}

theorem append_left (h : InOrder pieces cs) (front : List Char) : InOrder pieces (front ++ cs) := by
  cases pieces with
  | nil => trivial
  | cons piece rest =>
    obtain ⟨before, after, rfl, hrest⟩ := h
    exact ⟨front ++ before, after, by simp, hrest⟩

theorem append_right (h : InOrder pieces cs) (back : List Char) : InOrder pieces (cs ++ back) := by
  induction pieces generalizing cs with
  | nil => trivial
  | cons piece rest ih =>
    obtain ⟨before, after, rfl, hrest⟩ := h
    exact ⟨before, after ++ back, by simp, ih hrest⟩

end Text.InOrder

namespace Directive

theorem AddressTree.Fits.wellFormed {tree : AddressTree} (h : tree.Fits) :
    tree.meaning.WellFormed := by
  cases tree with
  | offset negative digits => exact h
  | index digits =>
    rw [AddressTree.meaning]
    split
    · exact ⟨by decide, by decide⟩
    · next hpositive => exact ⟨Nat.pos_of_ne_zero hpositive, h⟩
  | first | last | anchor => trivial

theorem CellTree.wellFormed_meaning {tree : CellTree} (h : tree.All AddressTree.Fits) :
    tree.meaning.WellFormed := by
  cases tree with
  | row r | column c =>
    refine ⟨List.cons_ne_nil _ _, List.forall_mem_singleton.mpr ?_⟩
    exact AddressTree.Fits.wellFormed h
  | both r c =>
    refine ⟨List.cons_ne_nil _ _, List.forall_mem_cons.mpr ⟨h.1.wellFormed, ?_⟩⟩
    exact List.forall_mem_singleton.mpr h.2.wellFormed

theorem ReferenceTree.wellFormed_meaning {tree : ReferenceTree} (h : tree.All AddressTree.Fits) :
    tree.meaning.WellFormed := by
  cases tree with
  | cell c => exact ⟨c.wellFormed_meaning h, c.wellFormed_meaning h⟩
  | range s f => exact ⟨s.wellFormed_meaning h.1, f.wellFormed_meaning h.2⟩

end Directive

namespace Expr.WellFormed

variable {registry : Registry} {source larger : List Char}

theorem mono {expr : Expr} (h : expr.WellFormed registry source) (hsource : source <:+: larger) :
    expr.WellFormed registry larger := by
  induction h with
  | literal h =>
    cases h with
    | number hn hstands => exact .literal (.number hn (hstands.trans hsource))
    | text ht hstands => exact .literal (.text ht (hstands.trans hsource))
  | reference h => exact .reference h
  | algebraic _ _ ihleft ihright => exact .algebraic ihleft ihright
  | aggregate hname _ ih => exact .aggregate hname ih
  | conditional hcompared _ _ _ _ ihleft ihright ihthen ihelse =>
    obtain ⟨hleft, hsign, hspaced, hright, hstands, hleftRange, hrightRange⟩ := hcompared
    exact .conditional
      ⟨hleft, hsign, hspaced, hright, hstands.trans hsource, hleftRange, hrightRange⟩
      ihleft ihright ihthen ihelse

end Expr.WellFormed

namespace Directive.Grammar

variable {registry : Registry}

/-- An operand that means a range without being written as one is a group. -/
theorem Operand.inParentheses {cs : List Char} {tree : OperandTree} (h : Operand cs tree)
    (hwritten : ¬ tree.IsRange) (hrange : tree.meaning.isRange = true) : InParentheses cs := by
  cases h with
  | group => exact ⟨_, rfl⟩
  | @reference _ r _ =>
    rw [OperandTree.meaning] at hrange
    cases r with
    | cell c => cases hrange
    | range s f => exact absurd trivial hwritten
  | conditional | call | number | text =>
    rw [OperandTree.meaning] at hrange
    cases hrange

mutual

theorem Operand.wellFormed {cs : List Char} {tree : OperandTree} (h : Operand cs tree)
    (hadmitted : tree.Admitted registry) : tree.meaning.WellFormed registry cs := by
  cases h with
  | @conditional opening left sign right comma thenText comma' elseText closing _ _ _ _ _ _ _
      hleft hsign hspaced hright _ hthen _ helse _ =>
    rw [OperandTree.Admitted] at hadmitted
    obtain ⟨⟨hleftRange, hleftAdmitted⟩, ⟨hrightRange, hrightAdmitted⟩, hthenAdmitted,
      helseAdmitted⟩ := hadmitted
    rw [OperandTree.meaning]
    refine .conditional ⟨⟨_, hleft, rfl⟩, hsign, hspaced, ⟨_, hright, rfl⟩, ?inComparison,
      hleft.inParentheses hleftRange, hright.inParentheses hrightRange⟩
      ((hleft.wellFormed hleftAdmitted).mono ?inLeft)
      ((hright.wellFormed hrightAdmitted).mono ?inRight)
      ((hthen.wellFormed hthenAdmitted).mono ?inThen)
      ((helse.wellFormed helseAdmitted).mono ?inElse)
    case inComparison =>
      exact ⟨'i' :: 'f' :: opening,
        comma ++ thenText ++ comma' ++ elseText ++ closing ++ [')'], by simp⟩
    case inLeft =>
      exact ⟨'i' :: 'f' :: opening,
        sign ++ right ++ comma ++ thenText ++ comma' ++ elseText ++ closing ++ [')'], by simp⟩
    case inRight =>
      exact ⟨'i' :: 'f' :: opening ++ left ++ sign,
        comma ++ thenText ++ comma' ++ elseText ++ closing ++ [')'], by simp⟩
    case inThen =>
      exact ⟨'i' :: 'f' :: opening ++ left ++ sign ++ right ++ comma,
        comma' ++ elseText ++ closing ++ [')'], by simp⟩
    case inElse =>
      exact ⟨'i' :: 'f' :: opening ++ left ++ sign ++ right ++ comma ++ thenText ++ comma',
        closing ++ [')'], by simp⟩
  | @call name opening text closing _ _ _ _ hargument _ =>
    rw [OperandTree.Admitted] at hadmitted
    rw [OperandTree.meaning]
    exact .aggregate hadmitted.1 ((hargument.wellFormed hadmitted.2).mono
      ⟨name ++ '(' :: opening, closing ++ [')'], by simp⟩)
  | reference _ =>
    rw [OperandTree.Admitted] at hadmitted
    rw [OperandTree.meaning]
    exact .reference (ReferenceTree.wellFormed_meaning hadmitted)
  | @group opening text links closing _ _ _ hhead htail _ =>
    rw [OperandTree.Admitted] at hadmitted
    rw [OperandTree.meaning]
    exact Expr.climb_inherits .algebraic (by simp)
      ((hhead.wellFormed hadmitted.1).mono
        ⟨'(' :: opening, links ++ closing ++ [')'], by simp⟩)
      fun operation hmem => (htail.wellFormed hadmitted.2 operation hmem).mono
        ⟨'(' :: opening ++ text, closing ++ [')'], by simp⟩
  | number h =>
    rw [OperandTree.meaning]
    exact .literal (.number h List.infix_rfl)
  | text h =>
    rw [OperandTree.meaning]
    exact .literal (.text h List.infix_rfl)

theorem Chain.wellFormed {cs : List Char} {tree : ChainTree} (h : Chain cs tree)
    (hadmitted : tree.Admitted registry) :
    ∀ operation ∈ tree.meaning, operation.2.WellFormed registry cs := by
  cases h with
  | done => simp [ChainTree.meaning]
  | @link _ spaced text more _ _ _ _ _ hoperand htail =>
    rw [ChainTree.Admitted] at hadmitted
    rw [ChainTree.meaning, List.forall_mem_cons]
    exact ⟨(hoperand.wellFormed hadmitted.1).mono ⟨spaced, more, rfl⟩,
      fun operation hmem => (htail.wellFormed hadmitted.2 operation hmem).mono
        (List.suffix_append _ _).isInfix⟩

end

theorem Formula.wellFormed {cs : List Char} {tree : FormulaTree} (h : Formula cs tree)
    (hadmitted : tree.Admitted registry) : tree.meaning.WellFormed registry where
  target := ReferenceTree.wellFormed_meaning hadmitted.fits
  target_absolute :=
    Reference.offset_not_mem_addresses (tree.target.isRelative_meaning.mpr hadmitted.isAbsolute)
  expr := by
    have hsource : tree.meaning.source.toList = cs := h.toList_source
    rw [hsource]
    cases h with
    | @plain ts equals os _ _ _ _ hoperand =>
      exact (hoperand.wellFormed hadmitted.operand).mono (List.suffix_append _ _).isInfix
    | @displayed ts equals os semicolon ds _ _ _ _ _ hoperand _ _ =>
      exact (hoperand.wellFormed hadmitted.operand).mono
        ⟨ts ++ equals, semicolon ++ ds, by simp⟩
  places := by
    intro places hplaces
    obtain ⟨d, hd, hmeaning⟩ := Option.map_eq_some_iff.mp hplaces
    have hbound := hadmitted.display d hd
    cases d with
    | fixed digits =>
      cases hmeaning
      exact hbound
    | dateTime | hoursMinutes => cases hmeaning

/-- The sources of formulas stand in their text in order. -/
theorem Formulas.inOrder {cs : List Char} {trees : List FormulaTree} (h : Formulas cs trees) :
    Text.InOrder (trees.map fun tree => tree.source.toList) cs := by
  induction h with
  | @one cs _ h =>
    have hsource := h.toList_source
    exact ⟨[], [], by simp [hsource], trivial⟩
  | @more cs colons rest _ _ hformula _ _ ih =>
    have hsource := hformula.toList_source
    exact ⟨[], colons ++ rest, by simp [hsource], ih.append_left colons⟩

end Directive.Grammar

/-- Every formula that is read is one that evaluation can rely on, and the sources of the formulas
stand in the trimmed directive in order and apart from each other. -/
theorem Formula.wellFormed_of_ofDirective {registry : Registry} {directive : String}
    {formulas : List Formula} (h : ofDirective registry directive = .ok formulas) :
    (∀ formula ∈ formulas, formula.WellFormed registry) ∧
      Text.InOrder (formulas.map fun formula => formula.source.toList)
        (Text.trim directive.toList) := by
  constructor
  · intro formula hformula
    obtain ⟨piece, tree, hpiece, hadmitted, rfl⟩ := exists_tree_of_ofDirective h hformula
    exact hpiece.wellFormed hadmitted
  · obtain ⟨trees, hroot⟩ := root_of_ofDirective h
    obtain ⟨_, rfl⟩ := (ofDirective_of_derives hroot).mp h
    obtain ⟨before, text, after, htext, htrees⟩ := hroot.exists_formulas
    rw [htext, List.map_map]
    exact (htrees.inOrder.append_left before).append_right after

/-- A condition on a range in parentheses, with a text that looks like the end of a formula, and a
formula that reads its own cell. -/
theorem Formula.wellFormed_of_ofDirective_nested :
    let directive :=
      "<!-- TBLFM: @>=if((@I..@-1)>1, \"::\", (sum(@<)/-2.5));%.2f :: $2=$0 -->"
    let formulas : List Formula :=
      [⟨"@>=if((@I..@-1)>1, \"::\", (sum(@<)/-2.5));%.2f", .cell ⟨some .last, none⟩,
          .conditional (.reference (.range ⟨some .anchor, none⟩ ⟨some (.offset (-1)), none⟩)) .gt
            (.literal "1") (.literal "::")
            (.algebraic .divide (.aggregate "sum" (.reference (.cell ⟨some .first, none⟩)))
              (.literal "-2.5")),
          some (.fixed 2)⟩,
        ⟨"$2=$0", .cell ⟨none, some (.index 2)⟩, .reference (.cell ⟨none, some (.offset 0)⟩),
          none⟩]
    ofDirective .standard directive = .ok formulas ∧
      (∀ formula ∈ formulas, formula.WellFormed .standard) ∧
      Text.InOrder (formulas.map fun formula => formula.source.toList)
        (Text.trim directive.toList) := by
  intro directive formulas
  have hread : ofDirective .standard directive = .ok formulas := by decide +kernel
  exact ⟨hread, wellFormed_of_ofDirective hread⟩

/-- The operand of a comparison is a range, if the range is written in parentheses. -/
theorem Formula.comparesRange_of_parentheses :
    ∃ formulas, ofDirective .empty "@2$1=if((@2$1..@3$1)>1,1,2)" = .ok formulas ∧
      ∃ formula ∈ formulas, formula.expr.comparesRange = true := by
  let formula : Formula :=
    ⟨"@2$1=if((@2$1..@3$1)>1,1,2)", .cell ⟨some (.index 2), some (.index 1)⟩,
      .conditional
        (.reference
          (.range ⟨some (.index 2), some (.index 1)⟩ ⟨some (.index 3), some (.index 1)⟩))
        .gt (.literal "1") (.literal "1") (.literal "2"), none⟩
  exact ⟨[formula], by decide +kernel, formula, List.mem_singleton_self formula, rfl⟩

end TableCalc
