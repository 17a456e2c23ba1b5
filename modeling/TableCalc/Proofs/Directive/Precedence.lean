import TableCalc.Proofs.Directive.Literals
import TableCalc.Proofs.Directive.Operands

/-!
How the operations of a group bind. A group is a sum of terms, and a term is a product of operands.
Both are folded from the left, so that products bind tighter than sums and operations of one level
belong to what stands before them. Climbing by the levels of the operations finds the same
expression.
-/

namespace TableCalc

/-- How tightly an operation binds. -/
def Operation.level : Operation → Nat
  | .add | .subtract => 1
  | .multiply | .divide => 2

namespace Expr

/-- Operations with their right operands, each one applied to all that stands before it. -/
def foldLeft (head : Expr) (operations : List (Operation × Expr)) : Expr :=
  operations.foldl (fun left operation => .algebraic operation.1 left operation.2) head

/-- An operand that is multiplied and divided by others. -/
structure Term where
  head : Expr
  factors : List (Operation × Expr)
  products : ∀ factor ∈ factors, factor.1.isProduct = true

def Term.expr (term : Term) : Expr := foldLeft term.head term.factors

/-- Terms with a plus or a minus between each one and the next, so that none of them could be
longer. -/
structure SumOfTerms where
  first : Term
  rest : List (Operation × Term)
  sums : ∀ summand ∈ rest, summand.1.isProduct = false

namespace SumOfTerms

/-- The operations behind the first operand in the order in which they are written. -/
def operations (sum : SumOfTerms) : List (Operation × Expr) :=
  sum.first.factors ++
    sum.rest.flatMap fun summand => (summand.1, summand.2.head) :: summand.2.factors

def expr (sum : SumOfTerms) : Expr :=
  foldLeft sum.first.expr (sum.rest.map fun summand => (summand.1, summand.2.expr))

end SumOfTerms

/-- An expression that is the sum of the terms that operations and their operands form. -/
def IsSumOfTerms (head : Expr) (operations : List (Operation × Expr)) (expr : Expr) : Prop :=
  ∃ sum : SumOfTerms, sum.first.head = head ∧ sum.operations = operations ∧ sum.expr = expr

/-- Climbing by levels. What stands on the left takes the operations above a level one after the
other, and leaves the rest; the right operand of an operation first takes those above the level of
the operation itself. -/
inductive Climbs : (level : Nat) → (left : Expr) → (operations : List (Operation × Expr)) →
    (result : Expr) → (rest : List (Operation × Expr)) → Prop where
  | stop {level : Nat} {left : Expr} {operations : List (Operation × Expr)}
      (hstop : ∀ next ∈ operations.head?, next.1.level ≤ level) :
      Climbs level left operations left operations
  | take {level : Nat} {left operand right result : Expr} {op : Operation}
      {operations afterRight rest : List (Operation × Expr)} (hlevel : level < op.level)
      (hright : Climbs op.level operand operations right afterRight)
      (hmore : Climbs level (.algebraic op left right) afterRight result rest) :
      Climbs level left ((op, operand) :: operations) result rest

section Climb

variable {waiting : Option (Expr × Operation)} {head : Expr}
  {factors operations more : List (Operation × Expr)} {summands : List (Operation × Term)}

/-- Products extend the current term. -/
theorem climb_factors (hfactors : ∀ factor ∈ factors, factor.1.isProduct = true) :
    climb waiting head (factors ++ more) = climb waiting (foldLeft head factors) more := by
  induction factors generalizing head with
  | nil => rfl
  | cons factor factors ih =>
    rw [List.forall_mem_cons] at hfactors
    rw [List.cons_append, climb, if_pos hfactors.1, ih hfactors.2]
    rfl

/-- Sums are folded from the left, with whole terms on their right. -/
theorem climb_summands (hsummands : ∀ summand ∈ summands, summand.1.isProduct = false) :
    climb waiting head
        (summands.flatMap fun summand => (summand.1, summand.2.head) :: summand.2.factors) =
      foldLeft (joinTerm waiting head)
        (summands.map fun summand => (summand.1, summand.2.expr)) := by
  induction summands generalizing waiting head with
  | nil => rfl
  | cons summand summands ih =>
    obtain ⟨op, term⟩ := summand
    rw [List.forall_mem_cons] at hsummands
    have hop : op.isProduct ≠ true := Bool.eq_false_iff.mp hsummands.1
    rw [List.flatMap_cons, List.cons_append, climb, if_neg hop, climb_factors term.products,
      ih hsummands.2]
    rfl

theorem climb_sumOfTerms (sum : SumOfTerms) :
    climb none sum.first.head sum.operations = sum.expr := by
  rw [SumOfTerms.operations, climb_factors sum.first.products, climb_summands sum.sums]
  rfl

/-- Any operations form terms: a product belongs to the term that it stands in, and a sum starts
another one. -/
theorem exists_sumOfTerms (head : Expr) (operations : List (Operation × Expr)) :
    ∃ sum : SumOfTerms, sum.first.head = head ∧ sum.operations = operations := by
  induction operations generalizing head with
  | nil => exact ⟨⟨⟨head, [], by simp⟩, [], by simp⟩, rfl, rfl⟩
  | cons operation operations ih =>
    obtain ⟨op, operand⟩ := operation
    obtain ⟨⟨first, rest, hsums⟩, rfl, rfl⟩ := ih operand
    cases hop : op.isProduct with
    | true =>
      have hproducts : ∀ factor ∈ (op, first.head) :: first.factors, factor.1.isProduct = true :=
        List.forall_mem_cons.mpr ⟨hop, first.products⟩
      exact ⟨⟨⟨head, _, hproducts⟩, rest, hsums⟩, rfl, rfl⟩
    | false =>
      have hsums : ∀ summand ∈ (op, first) :: rest, summand.1.isProduct = false :=
        List.forall_mem_cons.mpr ⟨hop, hsums⟩
      exact ⟨⟨⟨head, [], by simp⟩, _, hsums⟩, rfl, rfl⟩

/-- The terms in order, and the operations between them, determine the expression of a group. -/
theorem climb_eq_iff {expr : Expr} :
    climb none head operations = expr ↔ IsSumOfTerms head operations expr := by
  constructor
  · rintro rfl
    obtain ⟨sum, rfl, rfl⟩ := exists_sumOfTerms head operations
    exact ⟨sum, rfl, rfl, (climb_sumOfTerms sum).symm⟩
  · rintro ⟨sum, rfl, rfl, rfl⟩
    exact climb_sumOfTerms sum

end Climb

section Order

variable {α : Type} {collect : Expr → List α}
  (hcollect : ∀ op left right,
    collect (.algebraic op left right) = collect left ++ collect right)

include hcollect

theorem collect_foldLeft (head : Expr) (operations : List (Operation × Expr)) :
    collect (foldLeft head operations) =
      collect head ++ operations.flatMap fun operation => collect operation.2 := by
  induction operations generalizing head with
  | nil => simp [foldLeft]
  | cons operation operations ih =>
    have hfold : foldLeft head (operation :: operations) =
        foldLeft (.algebraic operation.1 head operation.2) operations := rfl
    rw [hfold, ih, hcollect, List.flatMap_cons, List.append_assoc]

/-- What an expression has from left to right it has from the operands in their order. -/
theorem IsSumOfTerms.collect_eq {head : Expr} {operations : List (Operation × Expr)} {expr : Expr}
    (h : IsSumOfTerms head operations expr) :
    collect expr = collect head ++ operations.flatMap fun operation => collect operation.2 := by
  obtain ⟨sum, rfl, rfl, rfl⟩ := h
  rw [SumOfTerms.expr, SumOfTerms.operations, collect_foldLeft hcollect, Term.expr,
    collect_foldLeft hcollect, List.flatMap_append, List.append_assoc, List.flatMap_map,
    List.flatMap_assoc]
  simp only [Term.expr, collect_foldLeft hcollect, List.flatMap_cons]

end Order

namespace Climbs

theorem unique {level : Nat} {left result other : Expr}
    {operations rest otherRest : List (Operation × Expr)}
    (h : Climbs level left operations result rest)
    (hother : Climbs level left operations other otherRest) :
    result = other ∧ rest = otherRest := by
  induction h generalizing other otherRest with
  | stop hstop =>
    cases hother with
    | stop => exact ⟨rfl, rfl⟩
    | take hlevel => exact absurd (hstop _ rfl) (Nat.not_le.mpr hlevel)
  | take hlevel _ _ ihright ihmore =>
    cases hother with
    | stop hstop => exact absurd (hstop _ rfl) (Nat.not_le.mpr hlevel)
    | take _ hright hmore =>
      obtain ⟨rfl, rfl⟩ := ihright hright
      exact ihmore hmore

theorem level_of_isProduct {op : Operation} (h : op.isProduct = true) : op.level = 2 := by
  cases op with
  | multiply | divide => rfl
  | add | subtract => cases h

theorem level_of_not_isProduct {op : Operation} (h : op.isProduct = false) : op.level = 1 := by
  cases op with
  | add | subtract => rfl
  | multiply | divide => cases h

theorem level_le (op : Operation) : op.level ≤ 2 := by
  cases op with
  | add | subtract | multiply | divide => decide

variable {level : Nat} {head result : Expr} {products more rest : List (Operation × Expr)}

/-- Below the level of products, a term takes its factors first. No operation is above their level,
so their right operands stay as they are. -/
theorem factors (hlevel : level < 2) (hproducts : ∀ factor ∈ products, factor.1.isProduct = true)
    (h : Climbs level (foldLeft head products) more result rest) :
    Climbs level head (products ++ more) result rest := by
  induction products generalizing head with
  | nil => exact h
  | cons factor products ih =>
    obtain ⟨op, operand⟩ := factor
    rw [List.forall_mem_cons] at hproducts
    have hop : op.level = 2 := level_of_isProduct hproducts.1
    refine .take (hop ▸ hlevel) (.stop fun next _ => hop ▸ level_le next.1) ?_
    exact ih hproducts.2 h

/-- From the bottom, sums are taken one after the other, and the right operand of each one is a
whole term: the next sum is not above the level of sums. -/
theorem summands {summands : List (Operation × Term)}
    (hsummands : ∀ summand ∈ summands, summand.1.isProduct = false) :
    Climbs 0 head
      (summands.flatMap fun summand => (summand.1, summand.2.head) :: summand.2.factors)
      (foldLeft head (summands.map fun summand => (summand.1, summand.2.expr))) [] := by
  induction summands generalizing head with
  | nil => exact .stop fun next hnext => nomatch hnext
  | cons summand summands ih =>
    obtain ⟨op, term⟩ := summand
    rw [List.forall_mem_cons] at hsummands
    have hop : op.level = 1 := level_of_not_isProduct hsummands.1
    refine .take (hop ▸ Nat.one_pos) ?_ (ih hsummands.2)
    rw [hop]
    refine factors (by decide) term.products (.stop fun next hnext => ?_)
    cases summands with
    | nil => cases hnext
    | cons following summands =>
      cases hnext
      exact (level_of_not_isProduct (List.forall_mem_cons.mp hsummands.2).1).le

theorem sumOfTerms (sum : SumOfTerms) : Climbs 0 sum.first.head sum.operations sum.expr [] :=
  factors (by decide) sum.first.products (summands sum.sums)

/-- Climbing from the bottom takes all operations, and forms their sum of terms. -/
theorem iff_isSumOfTerms {operations : List (Operation × Expr)} {expr : Expr} :
    Climbs 0 head operations expr [] ↔ IsSumOfTerms head operations expr := by
  constructor
  · intro h
    obtain ⟨sum, rfl, rfl⟩ := exists_sumOfTerms head operations
    exact ⟨sum, rfl, rfl, ((sumOfTerms sum).unique h).1⟩
  · rintro ⟨sum, rfl, rfl, rfl⟩
    exact sumOfTerms sum

end Climbs

end Expr

namespace Directive

variable {registry : Registry}

/-- Signs of operations with gaps around them, and texts that are read as operands. -/
inductive Links (registry : Registry) : List Char → List (Operation × Expr) → Prop where
  | done : Links registry [] []
  | link {sign spaced more : List Char} {op : Operation} {text : String} {operand : Expr}
      {operations : List (Operation × Expr)} (hsign : Grammar.Sign sign op)
      (hspaced : Grammar.Spaced sign spaced) (hoperand : ReadsAs registry text operand)
      (hmore : Links registry more operations) :
      Links registry (spaced ++ text.toList ++ more) ((op, operand) :: operations)

/-- A group: operands with operations between them, in parentheses. -/
inductive GroupOf (registry : Registry) : List Char → Expr → List (Operation × Expr) → Prop where
  | mk {opening links closing : List Char} {text : String} {head : Expr}
      {operations : List (Operation × Expr)} (hopening : Grammar.Gap opening)
      (hhead : ReadsAs registry text head) (hlinks : Links registry links operations)
      (hclosing : Grammar.Gap closing) :
      GroupOf registry ('(' :: opening ++ text.toList ++ links ++ closing ++ [')']) head operations

theorem Links.exists_chain {cs : List Char} {operations : List (Operation × Expr)}
    (h : Links registry cs operations) :
    ∃ tree, Grammar.Chain cs tree ∧ tree.Admitted registry ∧ tree.meaning = operations := by
  induction h with
  | done => exact ⟨.done, .done, trivial, rfl⟩
  | link hsign hspaced hoperand _ ih =>
    obtain ⟨tail, htail, htailAdmitted, rfl⟩ := ih
    obtain ⟨g, cs, tree, hg, hsplit, htree, hadmitted, rfl⟩ := hoperand.exists_operand
    refine ⟨.link _ tree tail, ?_, ⟨hadmitted, htailAdmitted⟩, rfl⟩
    rw [hsplit, ← List.append_assoc]
    exact .link hsign (hspaced.append hg) htree htail

theorem Grammar.Chain.links {cs : List Char} {tree : ChainTree} (h : Chain cs tree)
    (hadmitted : tree.Admitted registry) : Links registry cs tree.meaning := by
  cases h with
  | done => exact .done
  | @link _ spaced text more _ _ _ hsign hspaced hoperand htail =>
    rw [ChainTree.Admitted] at hadmitted
    have hlink := Links.link hsign hspaced (readsAs_of_operand hoperand hadmitted.1)
      (htail.links hadmitted.2)
    rwa [String.toList_ofList] at hlink

/-- Of all operands only groups start with a parenthesis. -/
theorem Grammar.Operand.exists_group {cs : List Char} {tree : OperandTree} (h : Operand cs tree)
    (hparen : cs.head? = some '(') :
    ∃ opening text links closing head tail,
      cs = '(' :: opening ++ text ++ links ++ closing ++ [')'] ∧ tree = .group head tail ∧
        Gap opening ∧ Operand text head ∧ Chain links tail ∧ Gap closing := by
  cases h with
  | group hopening hhead htail hclosing =>
    exact ⟨_, _, _, _, _, _, rfl, rfl, hopening, hhead, htail, hclosing⟩
  | conditional | text => cases hparen
  | call hname =>
    obtain ⟨hc, _⟩ := hname
    cases hparen
    cases hc
  | reference hr =>
    obtain ⟨axis, more, rfl⟩ := reference_head hr
    cases axis with
    | row | column => cases hparen
  | number hn =>
    obtain ⟨c, more, rfl, hc⟩ := number_head hn
    cases hparen
    rcases hc with hc | hc
    · cases hc
    · cases hc

theorem stops_of_parenthesis {cs : List Char} (h : cs.head? = some '(') : Text.Stops isGap cs := by
  intro c hc
  rw [h] at hc
  cases hc
  rfl

theorem GroupOf.head?_eq {cs : List Char} {head : Expr} {operations : List (Operation × Expr)}
    (h : GroupOf registry cs head operations) : cs.head? = some '(' := by
  cases h
  rfl

theorem groupOf_of_readsAs {text : String} {expr : Expr} (h : ReadsAs registry text expr)
    (hparen : text.toList.head? = some '(') :
    ∃ head operations, GroupOf registry text.toList head operations ∧
      Expr.climb none head operations = expr := by
  obtain ⟨tree, htree, hadmitted, rfl⟩ := readsAs_iff.mp h
  rw [gap_of_stops (stops_of_parenthesis hparen)] at htree
  obtain ⟨opening, cs, links, closing, head, tail, htext, rfl, hopening, hhead, htail, hclosing⟩ :=
    htree.exists_group hparen
  rw [OperandTree.Admitted] at hadmitted
  have hgroup := GroupOf.mk hopening (readsAs_of_operand hhead hadmitted.1)
    (htail.links hadmitted.2) hclosing
  rw [String.toList_ofList, ← htext] at hgroup
  exact ⟨head.meaning, tail.meaning, hgroup, rfl⟩

theorem GroupOf.readsAs {text : String} {head : Expr} {operations : List (Operation × Expr)}
    (h : GroupOf registry text.toList head operations) :
    ReadsAs registry text (.climb none head operations) := by
  generalize hcs : text.toList = cs at h
  cases h with
  | @mk opening links closing headText _ _ hopening hhead hlinks hclosing =>
    obtain ⟨tail, htail, htailAdmitted, rfl⟩ := hlinks.exists_chain
    obtain ⟨g, operand, tree, hg, hsplit, htree, hadmitted, rfl⟩ := hhead.exists_operand
    have hgroup := Grammar.Operand.group (hopening.append hg) htree htail hclosing
    have hread := readsAs_of_operand hgroup ⟨hadmitted, htailAdmitted⟩
    have htext : '(' :: (opening ++ g) ++ operand ++ links ++ closing ++ [')'] = text.toList := by
      rw [hcs, hsplit]
      simp
    rwa [htext, String.ofList_toList] at hread

end Directive

open Directive

/-- Products bind tighter than sums, and operations of one level bind from the left. A text that
starts with a parenthesis is read just if it is a group of texts that are read, as the sum of the
terms that their expressions form; for any operands there is one such sum; climbing by the levels of
the operations gives the same; and what an expression has from left to right, it has from the
operands in the order in which they are written. -/
theorem Directive.groups_bind_by_level (registry : Registry) :
    (∀ text expr, ReadsAs registry text expr ∧ text.toList.head? = some '(' ↔
      ∃ head operations, GroupOf registry text.toList head operations ∧
        Expr.IsSumOfTerms head operations expr) ∧
    (∀ head operations, ∃ sum, ∀ expr, Expr.IsSumOfTerms head operations expr ↔ expr = sum) ∧
    ∀ head operations expr, Expr.IsSumOfTerms head operations expr →
      Expr.Climbs 0 head operations expr [] ∧
      ∀ {α : Type} (collect : Expr → List α),
        (∀ op left right, collect (.algebraic op left right) = collect left ++ collect right) →
        collect expr = collect head ++ operations.flatMap fun operation => collect operation.2 := by
  refine ⟨fun text expr => ⟨?_, ?_⟩, fun head operations => ⟨.climb none head operations, ?_⟩,
    fun head operations expr h => ⟨?_, ?_⟩⟩
  · rintro ⟨hread, hparen⟩
    obtain ⟨head, operations, hgroup, hexpr⟩ := groupOf_of_readsAs hread hparen
    exact ⟨head, operations, hgroup, Expr.climb_eq_iff.mp hexpr⟩
  · rintro ⟨head, operations, hgroup, hexpr⟩
    exact ⟨Expr.climb_eq_iff.mpr hexpr ▸ hgroup.readsAs, hgroup.head?_eq⟩
  · exact fun expr => Expr.climb_eq_iff.symm.trans eq_comm
  · exact Expr.Climbs.iff_isSumOfTerms.mpr h
  · intro α collect hcollect
    exact h.collect_eq hcollect

/-- A longer mixed chain with a group as its last operand. -/
theorem Directive.groups_bind_by_level_chain :
    let text := "(1 - 2*@1 / 4 - (5+$1))"
    let operands : List (Operation × Expr) :=
      [(.subtract, .literal "2"), (.multiply, .reference (.cell ⟨some (.index 1), none⟩)),
        (.divide, .literal "4"),
        (.subtract,
          .algebraic .add (.literal "5") (.reference (.cell ⟨none, some (.index 1)⟩)))]
    let expr : Expr :=
      .algebraic .subtract
        (.algebraic .subtract (.literal "1")
          (.algebraic .divide
            (.algebraic .multiply (.literal "2") (.reference (.cell ⟨some (.index 1), none⟩)))
            (.literal "4")))
        (.algebraic .add (.literal "5") (.reference (.cell ⟨none, some (.index 1)⟩)))
    ReadsAs .empty text expr ∧
      (∃ head operations, GroupOf .empty text.toList head operations ∧
        Expr.IsSumOfTerms head operations expr) ∧
      Expr.Climbs 0 (.literal "1") operands expr [] ∧ expr.literals = ["1", "2", "4", "5"] := by
  intro text operands expr
  have hread : ReadsAs .empty text expr := by decide +kernel
  have hparen : text.toList.head? = some '(' := by simp [text]
  have hsum : Expr.IsSumOfTerms (.literal "1") operands expr := by
    let product : Expr.Term :=
      ⟨.literal "2",
        [(.multiply, .reference (.cell ⟨some (.index 1), none⟩)), (.divide, .literal "4")],
        by decide⟩
    let group : Expr.Term :=
      ⟨.algebraic .add (.literal "5") (.reference (.cell ⟨none, some (.index 1)⟩)), [], by simp⟩
    let sum : Expr.SumOfTerms :=
      ⟨⟨.literal "1", [], by simp⟩, [(.subtract, product), (.subtract, group)],
        by simp [Operation.isProduct]⟩
    exact ⟨sum, rfl, rfl, rfl⟩
  have hlaws := groups_bind_by_level .empty
  obtain ⟨hclimbs, horder⟩ := hlaws.2.2 _ _ _ hsum
  exact ⟨hread, (hlaws.1 text expr).mp ⟨hread, hparen⟩, hclimbs,
    horder Expr.literals fun _ _ _ => rfl⟩

end TableCalc
