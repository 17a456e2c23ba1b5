import Mathlib.Data.List.Nodup
import TableCalc.Engine
import TableCalc.Function.Help
import TableCalc.Proofs.Function.Similarity
import TableCalc.Proofs.Function.Standard

/-!
The order in which functions are registered and the order in which a registry holds them show
nowhere. A registry is the set of its entries, and the function of a key is the one that was
registered last. Whatever lists entries sorts them first, and no sort has ties: keys are distinct, and
so are the names of the functions, as equal names have equal keys.
-/

namespace TableCalc

section Sorting

variable {α : Type} {l l' : List α}

/-- Where no two items of a list come before each other, there is one way to sort it. -/
theorem mergeSort_eq_of_perm {le : α → α → Bool}
    (htrans : ∀ a b c, le a b = true → le b c = true → le a c = true)
    (htotal : ∀ a b, (le a b || le b a) = true)
    (hantisymm : ∀ a ∈ l, ∀ b ∈ l, le a b = true → le b a = true → a = b) (h : l.Perm l') :
    l.mergeSort le = l'.mergeSort le := by
  have hsorted : (l.mergeSort le).Perm (l'.mergeSort le) :=
    (List.mergeSort_perm l le).trans (h.trans (List.mergeSort_perm l' le).symm)
  refine hsorted.eq_of_pairwise (fun a b ha hb => ?_)
    (List.pairwise_mergeSort htrans htotal l) (List.pairwise_mergeSort htrans htotal l')
  exact hantisymm a ((List.mergeSort_perm l le).mem_iff.mp ha) b
    (h.mem_iff.mpr ((List.mergeSort_perm l' le).mem_iff.mp hb))

theorem mergeSort_by_eq_of_perm (key : α → String)
    (hkey : ∀ a ∈ l, ∀ b ∈ l, key a = key b → a = b) (h : l.Perm l') :
    (l.mergeSort fun a b => decide (key a ≤ key b)) =
      l'.mergeSort fun a b => decide (key a ≤ key b) := by
  refine mergeSort_eq_of_perm ?_ ?_ ?_ h
  · intro a b c hab hbc
    rw [decide_eq_true_iff] at hab hbc ⊢
    exact String.le_trans hab hbc
  · intro a b
    rw [Bool.or_eq_true, decide_eq_true_iff, decide_eq_true_iff]
    exact String.le_total _ _
  · intro a ha b hb hab hba
    rw [decide_eq_true_iff] at hab hba
    exact hkey a ha b hb (String.le_antisymm hab hba)

theorem nodup_eraseDups [BEq α] [LawfulBEq α] : (l : List α) → l.eraseDups.Nodup
  | [] => List.nodup_nil
  | a :: rest => by
    rw [List.eraseDups_cons, List.nodup_cons, List.mem_eraseDups]
    exact ⟨by simp, nodup_eraseDups (rest.filter fun b => !b == a)⟩
termination_by l => l.length
decreasing_by exact Nat.lt_succ_of_le (List.length_filter_le _ _)

theorem eraseDups_perm [BEq α] [LawfulBEq α] (h : l.Perm l') :
    l.eraseDups.Perm l'.eraseDups := by
  rw [List.perm_ext_iff_of_nodup (nodup_eraseDups l) (nodup_eraseDups l')]
  intro a
  rw [List.mem_eraseDups, List.mem_eraseDups, h.mem_iff]

end Sorting

namespace Registry

variable {registry other : Registry}

section Registering

/-- The function that is the last one of a list to be registered under a key. -/
def lastUnder? (functions : List Function) (key : String) : Option Function :=
  (functions.filter (Text.lower ·.info.name == key)).getLast?

theorem lookup_insert (registry : Registry) (f : Function) (key : String) :
    (registry.insert f).entries.lookup key =
      if Text.lower f.info.name = key then some f else registry.entries.lookup key := by
  apply Option.ext
  intro g
  rw [lookup_eq_some_iff, insert, List.mem_append, List.mem_filter, List.mem_singleton]
  by_cases hkey : Text.lower f.info.name = key
  · simp [hkey, eq_comm]
  · simp [hkey, Ne.symm hkey, lookup_eq_some_iff]

/-- What is registered is kept until a function of the same key is registered. -/
theorem lookup_ofList (functions : List Function) (key : String) :
    (ofList functions).entries.lookup key = lastUnder? functions key := by
  induction functions using List.reverseRecOn with
  | nil => rfl
  | append_singleton functions f ih =>
    have hstep : ofList (functions ++ [f]) = (ofList functions).insert f := by
      rw [ofList, ofList, List.foldl_concat]
    rw [hstep, lookup_insert, lastUnder?, List.filter_append]
    split
    · next hkey => simp [hkey]
    · next hkey =>
      rw [ih, lastUnder?]
      simp [hkey]

/-- Registries that find the same function under each key hold the same entries in some order. -/
theorem perm_of_lookup_eq (h : ∀ key, registry.entries.lookup key = other.entries.lookup key) :
    registry.entries.Perm other.entries := by
  rw [List.perm_ext_iff_of_nodup (.of_map _ registry.distinct) (.of_map _ other.distinct)]
  rintro ⟨key, f⟩
  rw [← lookup_eq_some_iff, ← lookup_eq_some_iff, h]

/-- Whether the key of each function is its name in lower case. -/
def Keyed (registry : Registry) : Prop :=
  ∀ entry ∈ registry.entries, entry.1 = Text.lower entry.2.info.name

theorem keyed_ofList (functions : List Function) : (ofList functions).Keyed :=
  forall_entries_ofList fun _ _ => rfl

end Registering

section Reordering

variable (hperm : registry.entries.Perm other.entries)

include hperm

theorem Keyed.of_perm (h : other.Keyed) : registry.Keyed := fun entry hentry =>
  h entry (hperm.mem_iff.mp hentry)

theorem find?_eq_of_perm (name : String) : registry.find? name = other.find? name := by
  apply Option.ext
  intro f
  rw [find?_eq_some_iff, find?_eq_some_iff, hperm.mem_iff]

theorem isExactName_eq_of_perm : registry.isExactName = other.isExactName := by
  funext name
  rw [isExactName, isExactName, find?_eq_of_perm hperm]

theorem similar_eq_of_perm (name : String) : registry.similar name = other.similar name := by
  have hscored : (registry.scored name).Perm (other.scored name) :=
    ((hperm.map Prod.fst).map _).filter _
  have hranked := (List.mergeSort_perm (other.scored name) rankedBefore).trans hscored.symm
  rw [similar_eq_of_ranked _ hranked (pairwise_rankedBefore _), similar_eq]

theorem callIn_eq_of_perm : registry.callIn = other.callIn := by
  funext context name input
  rw [callIn, callIn, find?_eq_of_perm hperm, similar_eq_of_perm hperm]

theorem categories_eq_of_perm : registry.categories = other.categories :=
  mergeSort_by_eq_of_perm id (fun _ _ _ _ heq => heq) (eraseDups_perm (hperm.map _))

theorem namesIn_eq_of_perm (category : String) :
    registry.namesIn category = other.namesIn category :=
  mergeSort_by_eq_of_perm id (fun _ _ _ _ heq => heq) ((hperm.filter _).map _)

theorem help_eq_of_perm (name : Option String) : registry.help name = other.help name := by
  cases name with
  | none =>
    simp only [help, categories_eq_of_perm hperm, namesIn_eq_of_perm hperm]
  | some name =>
    rw [help, help, find?_eq_of_perm hperm, similar_eq_of_perm hperm]

/-- Functions of one name have one key, so they are one entry. -/
theorem list_eq_of_perm (hkeyed : registry.Keyed) (category : Option String) :
    registry.list category = other.list category := by
  refine mergeSort_by_eq_of_perm FunctionInfo.name ?_ ((hperm.map _).filter _)
  intro info hinfo info' hinfo' hname
  obtain ⟨⟨key, f⟩, hentry, rfl⟩ := List.mem_map.mp (List.mem_filter.mp hinfo).1
  obtain ⟨⟨key', f'⟩, hentry', rfl⟩ := List.mem_map.mp (List.mem_filter.mp hinfo').1
  obtain rfl : key = key' :=
    (hkeyed _ hentry).trans ((congrArg Text.lower hname).trans (hkeyed _ hentry').symm)
  have hsame := (lookup_eq_some_iff.mpr hentry).symm.trans (lookup_eq_some_iff.mpr hentry')
  rw [Option.some.inj hsame]

theorem listJson_eq_of_perm (hkeyed : registry.Keyed) (category : Option String) :
    registry.listJson category = other.listJson category := by
  rw [listJson, listJson, list_eq_of_perm hperm hkeyed]

theorem catalogWith_eq_of_perm (hkeyed : registry.Keyed) :
    registry.catalogWith = other.catalogWith := by
  have hfind : registry.find? = other.find? := funext (find?_eq_of_perm hperm)
  have hsimilar : registry.similar = other.similar := funext (similar_eq_of_perm hperm)
  have hhelp : registry.help = other.help := funext (help_eq_of_perm hperm)
  have hlist : registry.list = other.list := funext (list_eq_of_perm hperm hkeyed)
  funext call
  rw [catalogWith, catalogWith, hfind, hsimilar, hhelp, hlist]

/-- Functions see the same of both registries. That they may call functions again does not matter,
however deep the calls nest. -/
theorem catalog_eq_of_perm (hkeyed : registry.Keyed) (depth : Nat) :
    registry.catalog depth = other.catalog depth := by
  induction depth with
  | zero => rw [catalog, catalog, catalogWith_eq_of_perm hperm hkeyed]
  | succ depth ih =>
    rw [catalog, catalog, ih, callIn_eq_of_perm hperm, catalogWith_eq_of_perm hperm hkeyed]

theorem call_eq_of_perm (hkeyed : registry.Keyed) : registry.call = other.call := by
  funext quotientDigits
  rw [call, call, context, context, catalog_eq_of_perm hperm hkeyed, callIn_eq_of_perm hperm]

theorem ofDirectives_eq_of_perm (directives : List String) :
    Formula.ofDirectives registry directives = Formula.ofDirectives other directives := by
  have hfault (text : String) :
      Directive.Fault.toError registry text = Directive.Fault.toError other text := by
    funext fault
    cases fault with
    | unknownFunction name =>
      rw [Directive.Fault.toError, Directive.Fault.toError, similar_eq_of_perm hperm]
    | _ => rfl
  have hdirective : Formula.ofDirective registry = Formula.ofDirective other := by
    funext directive
    rw [Formula.ofDirective, Formula.ofDirective, isExactName_eq_of_perm hperm, hfault]
  rw [Formula.ofDirectives, Formula.ofDirectives, hdirective]

theorem eval_eq_of_perm (hkeyed : registry.Keyed) (quotientDigits : Nat) (table : Table)
    (position : Position) (expr : Expr) :
    Engine.eval ⟨registry, quotientDigits⟩ table position expr =
      Engine.eval ⟨other, quotientDigits⟩ table position expr := by
  induction expr with
  | literal text | reference reference => rfl
  | algebraic op left right ihleft ihright =>
    rw [Engine.eval, Engine.eval, ihleft, ihright]
  | aggregate name argument ih =>
    rw [Engine.eval, Engine.eval, ih, call_eq_of_perm hperm hkeyed]
  | conditional left comparator right thenBranch elseBranch ihleft ihright ihthen ihelse =>
    rw [Engine.eval, Engine.eval, ihleft, ihright, ihthen, ihelse]

theorem evaluate_eq_of_perm (hkeyed : registry.Keyed) (quotientDigits : Nat)
    (directives : List String) (table : Table) :
    Engine.evaluate ⟨registry, quotientDigits⟩ directives table =
      Engine.evaluate ⟨other, quotientDigits⟩ directives table := by
  have hwrite (formula : Formula) :
      Engine.writeCell ⟨registry, quotientDigits⟩ formula =
        Engine.writeCell ⟨other, quotientDigits⟩ formula := by
    funext t p
    rw [Engine.writeCell, Engine.writeCell, eval_eq_of_perm hperm hkeyed]
  have hformula : Engine.applyFormula ⟨registry, quotientDigits⟩ =
      Engine.applyFormula ⟨other, quotientDigits⟩ := by
    funext t formula
    rw [Engine.applyFormula, Engine.applyFormula, hwrite]
  unfold Engine.evaluate Engine.apply
  rw [hformula, ofDirectives_eq_of_perm hperm]

end Reordering

/-- Neither the order of registration nor the order in which a registry holds its functions can be
observed. Two lists of functions of which the same ones are the last under each key make registries
that, with their entries in any order, find these functions by name, suggest the same names, tell the
same about one function or all of them, and list the same functions of each category; functions
themselves see the same of both, and calls have the same results; directives are read as the same
formulas or refused with the same error, and evaluated they leave the same table or fail alike. -/
theorem registration_order_unobservable {functions functions' : List Function}
    (hlast : ∀ key, lastUnder? functions key = lastUnder? functions' key)
    {registry registry' : Registry} (hentries : registry.entries.Perm (ofList functions).entries)
    (hentries' : registry'.entries.Perm (ofList functions').entries) :
    (∀ name, registry.find? name = lastUnder? functions (Text.lower name) ∧
      registry'.find? name = lastUnder? functions (Text.lower name)) ∧
    (∀ name, registry.similar name = registry'.similar name) ∧
    (∀ name, registry.help name = registry'.help name) ∧
    (∀ category, registry.listJson category = registry'.listJson category) ∧
    (∀ depth, registry.catalog depth = registry'.catalog depth) ∧
    (∀ quotientDigits name input,
      registry.call quotientDigits name input = registry'.call quotientDigits name input) ∧
    (∀ directives,
      Formula.ofDirectives registry directives = Formula.ofDirectives registry' directives) ∧
    ∀ quotientDigits directives table,
      Engine.evaluate ⟨registry, quotientDigits⟩ directives table =
        Engine.evaluate ⟨registry', quotientDigits⟩ directives table := by
  have hregistered : (ofList functions).entries.Perm (ofList functions').entries :=
    perm_of_lookup_eq fun key => by rw [lookup_ofList, lookup_ofList, hlast]
  have hperm := hentries.trans (hregistered.trans hentries'.symm)
  have hfind (name : String) : registry.find? name = lastUnder? functions (Text.lower name) :=
    (find?_eq_of_perm hentries name).trans (lookup_ofList functions _)
  have hkeyed : registry.Keyed := (keyed_ofList functions).of_perm hentries
  refine ⟨fun name => ⟨hfind name, (find?_eq_of_perm hperm name).symm.trans (hfind name)⟩,
    similar_eq_of_perm hperm, help_eq_of_perm hperm, listJson_eq_of_perm hperm hkeyed,
    catalog_eq_of_perm hperm hkeyed, fun _ _ _ => ?_, ofDirectives_eq_of_perm hperm,
    evaluate_eq_of_perm hperm hkeyed⟩
  rw [call_eq_of_perm hperm hkeyed]

/-- A function that writes the names of all functions. -/
def directory : Function where
  info := { Aggregate.sum.info with name := "names" }
  call context _ := .ok (.single (", ".intercalate ((context.functions.list none).map (·.name))))

/-- A function that leaves its work to the function sum. -/
def delegate : Function where
  info := { Aggregate.sum.info with name := "total" }
  call context := context.functions.call context.quotientDigits "sum"

/-- A function that replaces another one of its name in other letters, against a registry without the
replaced one that is gone through backwards. One function goes through the registry, and one calls the
function that was replaced. -/
theorem registration_order_unobservable_replaced :
    let functions := [Aggregate.sumAs "SUM", directory, Aggregate.sumAs "Sum", delegate]
    let functions' := [Aggregate.sumAs "Sum", directory, delegate]
    let registry := ofList functions
    let registry' : Registry :=
      { entries := (ofList functions').entries.reverse
        distinct := List.map_reverse ▸ List.nodup_reverse.mpr (ofList functions').distinct }
    let table : Table := ⟨[["A"], ["1"], ["2"]]⟩
    registry.names = ["names", "sum", "total"] ∧ registry'.names = ["total", "names", "sum"] ∧
      (∀ key, lastUnder? functions key = lastUnder? functions' key) ∧
      registry'.entries.Perm (ofList functions').entries ∧
      registry.find? "SUM" = some (Aggregate.sumAs "Sum") ∧
      registry'.find? "SUM" = some (Aggregate.sumAs "Sum") ∧
      registry.help (some "me") = registry'.help (some "me") ∧
      registry.help none = registry'.help none ∧
      registry.listJson (some "aggregate") = registry'.listJson (some "aggregate") ∧
      Engine.evaluate ⟨registry, 20⟩ ["@1=names(@2)", "@2=Sum(@2..@3)"] table =
        Engine.evaluate ⟨registry', 20⟩ ["@1=names(@2)", "@2=Sum(@2..@3)"] table ∧
      Engine.evaluate ⟨registry, 20⟩ ["@1=total(@2..@3)"] table = .ok ⟨[["3"], ["1"], ["2"]]⟩ ∧
      Engine.evaluate ⟨registry', 20⟩ ["@1=total(@2..@3)"] table = .ok ⟨[["3"], ["1"], ["2"]]⟩ := by
  intro functions functions' registry registry' table
  have hcapital : Text.lower "SUM" = "sum" := by decide +kernel
  have hmixed : Text.lower "Sum" = "sum" := by decide +kernel
  have hlast (key : String) : lastUnder? functions key = lastUnder? functions' key := by
    by_cases hkey : key = "sum"
    · rw [hkey]
      rfl
    · simp [lastUnder?, functions, functions', List.filter_cons, Aggregate.sumAs, hcapital, hmixed,
        Ne.symm hkey]
  have hperm : registry'.entries.Perm (ofList functions').entries := List.reverse_perm _
  have hsum : lastUnder? functions (Text.lower "SUM") = some (Aggregate.sumAs "Sum") := by
    rw [hcapital]
    rfl
  have htotal : Engine.evaluate ⟨registry, 20⟩ ["@1=total(@2..@3)"] table =
      .ok ⟨[["3"], ["1"], ["2"]]⟩ := by decide +kernel
  obtain ⟨hfind, hsimilar, hhelp, hlist, hcatalog, hcall, hread, hevaluate⟩ :=
    registration_order_unobservable hlast (.refl registry.entries) hperm
  exact ⟨by decide +kernel, by decide +kernel, hlast, hperm, (hfind "SUM").1.trans hsum,
    (hfind "SUM").2.trans hsum, hhelp _, hhelp _, hlist _, hevaluate _ _ _, htotal,
    (hevaluate _ _ _).symm.trans htotal⟩

end Registry

end TableCalc
