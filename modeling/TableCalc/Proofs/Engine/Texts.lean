import TableCalc.Proofs.Directive.Literals
import TableCalc.Proofs.Document.Cells
import TableCalc.Proofs.Engine.Calculated
import TableCalc.Proofs.Engine.Run
import TableCalc.Proofs.Text.Numerals

/-!
The texts that formulas write. What blank cells and calculated numbers have passes from the cells of a
table and the literals of a formula to the value of the formula; if moreover all numbers have it, and
lists of cells if the cells do, it passes to all that the formula writes. Two such properties are used:
to stay in its cell, and to have no line feed.
-/

namespace TableCalc

open Document

/-- A property that numbers have and that a text has if the texts that it is made of do. -/
structure Text.Inherited (P : String → Prop) : Prop where
  numeral : ∀ {text : String}, Text.Numeral text.toList → P text
  append : ∀ {s t : String}, P s → P t → P (s ++ t)
  trimmed : ∀ {s : String}, P s → P (Text.trimmed s)
  marks : ∀ mark ∈ ["[", ", ", "]"], P mark

theorem Text.inherited_onOneLine : Text.Inherited OnOneLine where
  numeral h hmem := absurd (h _ hmem) (by decide)
  append hs ht := by
    rw [OnOneLine, String.toList_append, List.mem_append, not_or]
    exact ⟨hs, ht⟩
  trimmed hs := by
    rw [OnOneLine, Text.trimmed, String.toList_ofList]
    exact fun hmem => hs (Text.mem_of_mem_trim hmem)
  marks := by decide

theorem Text.inherited_confined : Text.Inherited Confined where
  numeral {text} h := by
    have hpipe : '|' ∉ text.toList := fun hmem => absurd (h '|' hmem) (by decide)
    exact ⟨.of_not_mem hpipe, Text.inherited_onOneLine.numeral h⟩
  append hs ht := by
    refine ⟨?_, Text.inherited_onOneLine.append hs.feed ht.feed⟩
    rw [String.toList_append]
    exact hs.pipes.append ht.pipes
  trimmed hs := by
    refine ⟨?_, Text.inherited_onOneLine.trimmed hs.feed⟩
    rw [Text.trimmed, String.toList_ofList]
    exact hs.pipes.trim
  marks := by decide

variable {P : String → Prop} (hP : Text.Inherited P)

namespace Text.Inherited

include hP

theorem empty : P "" := hP.numeral .nil

theorem canonical (x : Decimal) : P x.canonical := hP.numeral (.canonical x)

theorem intercalate {separator : String} {texts : List String} (hseparator : P separator)
    (h : ∀ text ∈ texts, P text) : P (separator.intercalate texts) := by
  induction texts with
  | nil =>
    rw [String.intercalate_nil]
    exact hP.empty
  | cons first rest ih =>
    rw [List.forall_mem_cons] at h
    cases rest with
    | nil =>
      rw [String.intercalate_singleton]
      exact h.1
    | cons second rest =>
      rw [String.intercalate_cons_cons]
      exact hP.append (hP.append h.1 hseparator) (ih h.2)

end Text.Inherited

namespace Document.AllCells

variable {rows : List (List String)}

theorem single {text : String} (h : P text) : AllCells P (Grid.single text).cells := by
  simpa [AllCells, Grid.single] using h

theorem mapCells {ε : Type} {f : String → Except ε String} {input output : Grid}
    (hf : ∀ text result, f text = .ok result → P result)
    (h : input.mapCells f = .ok output) : AllCells P output.cells := by
  rw [Grid.mapCells] at h
  obtain ⟨rows, hrows, h⟩ := bind_eq_ok_iff.mp h
  cases h
  intro row hrow text htext
  obtain ⟨_, _, hrow⟩ := exists_of_mem_mapM hrows hrow
  obtain ⟨source, _, htext⟩ := exists_of_mem_mapM hrow htext
  exact hf source text htext

section Blank

variable (hblank : P "")

include hblank

theorem padRow {width : Nat} {row : List String} (h : ∀ text ∈ row, P text) :
    ∀ text ∈ Grid.padRow width row, P text := by
  intro text htext
  rcases List.mem_append.mp htext with hrow | hpad
  · exact h text hrow
  · rw [List.eq_of_mem_replicate hpad]
    exact hblank

theorem ofRows (h : AllCells P rows) : AllCells P (Grid.ofRows rows).cells := by
  intro row hrow
  obtain ⟨short, hshort, rfl⟩ := List.mem_map.mp hrow
  apply padRow hblank
  split at hshort
  · rw [List.mem_singleton.mp hshort]
    simp
  · exact h short hshort

/-- Every cell of the rows has the property, also one that a row does not have. -/
theorem text (h : AllCells P rows) (row column : Nat) :
    P (((rows[row]?.getD [])[column]?).getD "") := by
  cases hrow : rows[row]? with
  | none => simpa using hblank
  | some cells =>
    cases htext : cells[column]? with
    | none => simpa [htext] using hblank
    | some text =>
      simpa [htext] using h cells (List.mem_of_getElem? hrow) text (List.mem_of_getElem? htext)

theorem iff_text {t : Table} : AllCells P t.rows ↔ ∀ p, P (t.text p) := by
  refine ⟨fun h p => h.text hblank p.row p.column, fun h row hrow text htext => ?_⟩
  obtain ⟨i, hi⟩ := List.getElem?_of_mem hrow
  obtain ⟨j, hj⟩ := List.getElem?_of_mem htext
  simpa [Table.text, hi, hj] using h ⟨i, j⟩

end Blank

include hP

theorem render {value : Grid} (h : AllCells P value.cells) : P value.render := by
  rw [Grid.render]
  split
  · exact h.text hP.empty 0 0
  · have hitems : P (", ".intercalate
        ((value.cells.flatten.map Text.trimmed).filter (!·.isEmpty))) := by
      apply hP.intercalate (hP.marks _ (by simp))
      intro item hitem
      obtain ⟨source, hsource, rfl⟩ := List.mem_map.mp (List.mem_filter.mp hitem).1
      obtain ⟨row, hrow, hsource⟩ := List.mem_flatten.mp hsource
      exact hP.trimmed (h row hrow source hsource)
    exact hP.append (hP.append (hP.marks _ (by simp)) hitems) (hP.marks _ (by simp))

theorem display {value : Grid} (h : AllCells P value.cells) (display : Display) :
    AllCells P (display.apply value).cells := by
  rw [Display.apply]
  split
  · exact single (hP.numeral (.display _ _))
  · intro row hrow text htext
    obtain ⟨source, hsource, rfl⟩ := List.mem_map.mp hrow
    obtain ⟨text, hmem, rfl⟩ := List.mem_map.mp htext
    split
    · exact h source hsource text hmem
    · exact hP.numeral (.display _ _)

/-- What is written for a value has the property if the value's cells do. -/
theorem writtenText {value : Grid} (h : AllCells P value.cells) (display : Option Display) :
    P (writtenText display value) := by
  have hshown : AllCells P (display.elim value (·.apply value)).cells := by
    cases display with
    | none => exact h
    | some display => exact h.display hP display
  rw [TableCalc.writtenText]
  split
  · exact hP.numeral (by simp [Text.Numeral])
  · exact hshown.render hP

end Document.AllCells

/-- A registry whose functions all lead from cells with a property to cells with it, as formulas call
them. -/
def Registry.Keeps (P : String → Prop) (registry : Registry) : Prop :=
  ∀ quotientDigits name input output, AllCells P input.cells →
    registry.call quotientDigits name input = .ok output → AllCells P output.cells

theorem Registry.keeps_of_calculates {registry : Registry}
    (hregistry : ∀ entry ∈ registry.entries, entry.2.Calculates)
    (hcalculated : ∀ x, Calculated x → P x.canonical) : registry.Keeps P := by
  intro quotientDigits name input output _ h
  rw [call, callIn] at h
  split at h
  · next f hf =>
    obtain ⟨x, hx, rfl⟩ := hregistry _ (mem_entries_of_find? hf) _ input output h
    exact .single (hcalculated x hx)
  · cases h

include hP in
/-- The functions that are always there give single numbers. -/
theorem Registry.keeps_standard : Registry.standard.Keeps P :=
  keeps_of_calculates calculates_standard fun x _ => hP.canonical x

/-- A formula all of whose literals stay in their cell. -/
def Formula.Confined (formula : Formula) : Prop :=
  ∀ text ∈ formula.expr.literals, Document.Confined text

section Values

variable (hblank : P "") (hcalculated : ∀ x, Calculated x → P x.canonical)

include hcalculated

theorem Operation.apply_cells {op : Operation} {quotientDigits : Nat} {left right value : Grid}
    (h : op.apply quotientDigits left right = .ok value) : AllCells P value.cells := by
  have hcombined {a b text : String} (htext : Decimal.canonical <$>
      op.combine quotientDigits (Cell.number a) (Cell.number b) = .ok text) : P text := by
    obtain ⟨x, hx, rfl⟩ := map_eq_ok_iff.mp htext
    exact hcalculated x (.combine (.number a) (.number b) hx)
  rw [Operation.apply] at h
  split at h
  · cases h
  · split at h
    · cases h
    · split at h
      · exact .mapCells (fun _ _ => hcombined) h
      · exact .mapCells (fun _ _ => hcombined) h

include hblank

/-- What blank cells and calculated numbers have passes from the cells of a table and the literals of
an expression to the value of the expression. -/
theorem Engine.eval_cells {engine : Engine} (hfunctions : engine.functions.Keeps P) {table : Table}
    (htable : AllCells P table.rows) {p : Position} {expr : Expr}
    (hliterals : ∀ text ∈ expr.literals, P text) {value : Grid}
    (h : engine.eval table p expr = .ok value) : AllCells P value.cells := by
  induction expr generalizing value with
  | literal text =>
    cases h
    exact .single (hliterals text List.mem_cons_self)
  | reference reference =>
    obtain ⟨r, _, h⟩ := bind_eq_ok_iff.mp h
    cases h
    refine .ofRows hblank fun row hrow text htext => ?_
    obtain ⟨i, _, rfl⟩ := List.mem_map.mp hrow
    obtain ⟨j, _, rfl⟩ := List.mem_map.mp htext
    exact htable.text hblank i j
  | algebraic op left right _ _ =>
    obtain ⟨_, _, h⟩ := bind_eq_ok_iff.mp h
    obtain ⟨_, _, h⟩ := bind_eq_ok_iff.mp h
    exact Operation.apply_cells hcalculated h
  | aggregate name argument ih =>
    obtain ⟨input, hinput, h⟩ := bind_eq_ok_iff.mp h
    exact hfunctions _ _ _ _ (ih hliterals hinput) h
  | conditional left comparator right thenBranch elseBranch _ _ ihthen ihelse =>
    simp only [Expr.literals, List.forall_mem_append] at hliterals
    obtain ⟨_, hthen, helse⟩ := hliterals
    obtain ⟨_, _, h⟩ := bind_eq_ok_iff.mp h
    obtain ⟨_, _, h⟩ := bind_eq_ok_iff.mp h
    split at h
    · cases h
    · split at h
      · exact ihthen hthen h
      · exact ihelse helse h

end Values

namespace Engine

variable {engine : Engine} (hfunctions : engine.functions.Keeps P)

include hP hfunctions

theorem writeCell_cells {formula : Formula} (hliterals : ∀ text ∈ formula.expr.literals, P text)
    {p : Position} {before after : Table} (hp : before.extent.Contains p)
    (hbefore : AllCells P before.rows) (h : engine.writeCell formula before p = .ok after) :
    AllCells P after.rows := by
  obtain ⟨value, hvalue, h⟩ := bind_eq_ok_iff.mp h
  cases h
  have hvalue := eval_cells hP.empty (fun x _ => hP.canonical x) hfunctions hbefore hliterals hvalue
  have hwritten := hvalue.writtenText hP formula.display
  rw [AllCells.iff_text hP.empty]
  intro q
  rw [Table.text_set hp]
  split
  · exact hwritten
  · exact hbefore.text hP.empty q.row q.column

/-- Formulas whose literals have the property leave a table whose cells do. -/
theorem apply_cells {formulas : List Formula}
    (hformulas : ∀ formula ∈ formulas, ∀ text ∈ formula.expr.literals, P text)
    {before after : Table} (hbefore : AllCells P before.rows)
    (h : engine.apply formulas before = .ok after) : AllCells P after.rows := by
  obtain ⟨_, hrun, _⟩ := apply_run
    (R := fun _ t u => AllCells P t.rows → AllCells P u.rows) (fun _ ht => ht)
    (fun hfirst hsecond ht => hsecond (hfirst ht))
    (fun hformula hp ht hwrite hrows => writeCell_cells hP hfunctions (hformulas _ hformula)
      (ht ▸ Formula.contains_of_mem_targets hp) hrows hwrite) h
  exact hrun hbefore

end Engine

/-- The literals of directives that are on one line are on one line. -/
theorem Formula.onOneLine_of_ofDirectives {registry : Registry} {directives : List String}
    (hdirectives : ∀ directive ∈ directives, OnOneLine directive) {formulas : List Formula}
    (h : ofDirectives registry directives = .ok formulas) :
    ∀ formula ∈ formulas, ∀ literal ∈ formula.expr.literals, OnOneLine literal := by
  intro formula hformula literal hliteral hfeed
  obtain ⟨directive, hdirective, list, hread, hformula⟩ := exists_of_mem_ofDirectives h hformula
  apply hdirectives directive hdirective
  exact writtenIn_of_ofDirective hread formula hformula literal hliteral _ hfeed

end TableCalc
