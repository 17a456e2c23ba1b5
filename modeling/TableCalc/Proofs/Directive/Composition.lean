import TableCalc.Proofs.Directive.Derivation
import TableCalc.Proofs.Text.Blank

/-!
Directives that are joined. A formula neither starts nor ends with a blank, and two colons end it, so
directives with colons between them are read as the formulas of the first one, then those of the
next one, and each formula of a directive is read from its own text alone.
-/

namespace TableCalc

open Text (IsTrimmed Stops isBlank isBlank_of_isDigit)

namespace Directive

/-- Texts in a row, with two colons between each one and the next, and any gaps around the colons. -/
inductive Joined : List (List Char) → List Char → Prop where
  | one (cs : List Char) : Joined [cs] cs
  | more (cs : List Char) {colons joined : List Char} {rest : List (List Char)}
      (hcolons : Grammar.Spaced [':', ':'] colons) (hrest : Joined rest joined) :
      Joined (cs :: rest) (cs ++ colons ++ joined)

/-- A text with a last character, which is not blank. -/
def EndsVisibly (cs : List Char) : Prop := ∃ init c, cs = init ++ [c] ∧ isBlank c = false

theorem EndsVisibly.append {cs : List Char} (h : EndsVisibly cs) (front : List Char) :
    EndsVisibly (front ++ cs) := by
  obtain ⟨init, c, rfl, hc⟩ := h
  exact ⟨front ++ init, c, (List.append_assoc front init [c]).symm, hc⟩

theorem endsVisibly_concat (cs : List Char) {c : Char} (hc : isBlank c = false) :
    EndsVisibly (cs ++ [c]) :=
  ⟨cs, c, rfl, hc⟩

theorem isBlank_of_gap {g : List Char} (h : Grammar.Gap g) {c : Char} (hc : c ∈ g) :
    isBlank c = true := by
  rcases h c hc with rfl | rfl
  · rfl
  · rfl

namespace Grammar

theorem Digits.endsVisibly {ds : List Char} (h : Digits ds) : EndsVisibly ds := by
  obtain ⟨hne, hall⟩ := h
  refine ⟨ds.dropLast, ds.getLast hne, (List.dropLast_append_getLast hne).symm, ?_⟩
  exact isBlank_of_isDigit (hall _ (List.getLast_mem hne))

theorem Address.endsVisibly {text : List Char} {t : AddressTree} (h : Address text t) :
    EndsVisibly text := by
  cases h with
  | plus hd => exact hd.endsVisibly.append ['+']
  | minus hd => exact hd.endsVisibly.append ['-']
  | index hd => exact hd.endsVisibly
  | first | last | anchor => exact endsVisibly_concat [] rfl

theorem Cell.endsVisibly {text : List Char} {t : CellTree} (h : Cell text t) :
    EndsVisibly text := by
  cases h with
  | row hr => exact hr.endsVisibly.append ['@']
  | both _ hc => exact (hc.endsVisibly.append ['$']).append _
  | column hc => exact hc.endsVisibly.append ['$']

theorem Reference.endsVisibly {text : List Char} {t : ReferenceTree} (h : Reference text t) :
    EndsVisibly text := by
  cases h with
  | range _ hf => exact (hf.endsVisibly.append ['.', '.']).append _
  | cell hc => exact hc.endsVisibly

theorem Unsigned.endsVisibly {text : List Char} (h : Unsigned text) : EndsVisibly text := by
  cases h with
  | whole hd => exact hd.endsVisibly
  | fraction _ hf => exact (hf.endsVisibly.append ['.']).append _

theorem Operand.endsVisibly {text : List Char} {t : OperandTree} (h : Operand text t) :
    EndsVisibly text := by
  cases h with
  | conditional | call | group | text => exact endsVisibly_concat _ rfl
  | reference hr => exact hr.endsVisibly
  | number hn =>
    cases hn with
    | plain hu => exact hu.endsVisibly
    | negative hu => exact hu.endsVisibly.append ['-']

theorem Formula.endsVisibly {text : List Char} {t : FormulaTree} (h : Formula text t) :
    EndsVisibly text := by
  cases h with
  | plain _ _ hoperand => exact hoperand.endsVisibly.append _
  | displayed _ _ _ _ hdisplay =>
    refine EndsVisibly.append ?_ _
    cases hdisplay with
    | fixed => exact endsVisibly_concat _ rfl
    | dateTime => exact endsVisibly_concat ['d'] rfl
    | hoursMinutes => exact endsVisibly_concat ['h'] rfl

theorem Formulas.endsVisibly {text : List Char} {ts : List FormulaTree} (h : Formulas text ts) :
    EndsVisibly text := by
  induction h with
  | one h => exact h.endsVisibly
  | more _ _ _ ih => exact ih.append _

end Grammar

theorem isTrimmed_of_ends {cs : List Char} (hhead : Stops isBlank cs) (hlast : EndsVisibly cs) :
    IsTrimmed cs := by
  obtain ⟨init, c, rfl, hc⟩ := hlast
  refine ⟨hhead, ?_⟩
  rw [List.reverse_concat]
  exact Text.stops_of_head hc _

/-- Trimming takes nothing from formulas. -/
theorem Grammar.Formulas.isTrimmed {text : List Char} {ts : List FormulaTree}
    (h : Formulas text ts) : IsTrimmed text := by
  refine isTrimmed_of_ends ?_ h.endsVisibly
  obtain ⟨axis, more, rfl⟩ := formulas_head h
  cases axis with
  | row => exact Text.stops_of_head rfl _
  | column => exact Text.stops_of_head rfl _

/-- Two lists of formulas with colons between them. -/
theorem Grammar.Formulas.append {cs colons ds : List Char} {ts us : List FormulaTree}
    (hcs : Formulas cs ts) (hcolons : Spaced [':', ':'] colons) (hds : Formulas ds us) :
    Formulas (cs ++ colons ++ ds) (ts ++ us) := by
  induction hcs with
  | one h => exact .more h hcolons hds
  | more hformula hcolons' _ ih =>
    have hmore := Formulas.more hformula hcolons' ih
    simpa only [List.append_assoc, List.cons_append] using hmore

/-- A trimmed directive outside of a comment has nothing around its formulas. -/
theorem Grammar.Root.formulas_of_bare {cs : List Char} {ts : List FormulaTree} (h : Root cs ts)
    (hcs : IsTrimmed cs) (hcomment : ¬ commentStart <+: cs) : Formulas cs ts := by
  have hfront {g rest : List Char} (hg : Gap g) (hrest : Stops isBlank (g ++ rest)) : g = [] := by
    cases g with
    | nil => rfl
    | cons c g =>
      have hblank := isBlank_of_gap hg List.mem_cons_self
      rw [List.cons_append, Text.stops_cons, hblank] at hrest
      cases hrest
  cases h with
  | @bare before text after _ hbefore h hafter =>
    have hnone : before = [] := by
      have hhead := hcs.head
      rw [List.append_assoc] at hhead
      exact hfront hbefore hhead
    have hrest : after.reverse = [] := by
      have hlast := hcs.last
      rw [List.reverse_append] at hlast
      exact hfront (fun c hc => hafter c (List.mem_reverse.mp hc)) hlast
    rwa [hnone, List.reverse_eq_nil_iff.mp hrest, List.nil_append, List.append_nil]
  | @wrapped before mark text closing after _ hbefore _ _ _ _ =>
    have hnone : before = [] := by
      have hhead := hcs.head
      simp only [List.append_assoc] at hhead
      exact hfront hbefore hhead
    refine absurd ?_ hcomment
    rw [hnone]
    simp [commentStart]

/-- Formulas are a directive. -/
theorem Grammar.Formulas.root {cs : List Char} {ts : List FormulaTree} (h : Formulas cs ts) :
    Root (Text.trim cs) ts := by
  have hroot := Root.bare .nil h .nil
  rw [List.nil_append, List.append_nil] at hroot
  rwa [Text.trim_eq_self h.isTrimmed]

/-- What a directive consists of is formulas in a row, whatever is around them. -/
theorem Grammar.Root.exists_formulas {cs : List Char} {ts : List FormulaTree} (h : Root cs ts) :
    ∃ before text after, cs = before ++ text ++ after ∧ Formulas text ts := by
  cases h with
  | @bare before text after _ _ h _ => exact ⟨before, text, after, rfl, h⟩
  | @wrapped before mark text closing after _ _ _ h _ _ =>
    exact ⟨before ++ ['<', '!', '-', '-'] ++ mark, text, closing ++ ['-', '-', '>'] ++ after,
      by simp, h⟩

theorem Grammar.Formulas.exists_formula {text : List Char} {ts : List FormulaTree}
    (h : Formulas text ts) {t : FormulaTree} (ht : t ∈ ts) : ∃ piece, Formula piece t := by
  induction h with
  | one h =>
    rw [List.mem_singleton.mp ht]
    exact ⟨_, h⟩
  | more hformula _ _ ih =>
    rcases List.mem_cons.mp ht with rfl | hrest
    · exact ⟨_, hformula⟩
    · exact ih hrest

theorem Grammar.Formula.toList_source {text : List Char} {t : FormulaTree} (h : Formula text t) :
    t.source.toList = text := by
  cases h with
  | plain | displayed => exact String.toList_ofList

/-- Each formula that is read has a derivation of its own. -/
theorem exists_tree_of_ofDirective {registry : Registry} {directive : String}
    {formulas : List Formula} (h : Formula.ofDirective registry directive = .ok formulas)
    {formula : Formula} (hformula : formula ∈ formulas) :
    ∃ piece tree, Grammar.Formula piece tree ∧ tree.Admitted registry ∧ tree.meaning = formula := by
  obtain ⟨trees, hroot⟩ := Formula.root_of_ofDirective h
  obtain ⟨hadmitted, rfl⟩ := (Formula.ofDirective_of_derives hroot).mp h
  obtain ⟨tree, htree, rfl⟩ := List.mem_map.mp hformula
  obtain ⟨_, _, _, _, htrees⟩ := hroot.exists_formulas
  obtain ⟨piece, hpiece⟩ := htrees.exists_formula htree
  exact ⟨piece, tree, hpiece, hadmitted tree htree, rfl⟩

/-- A text that stands for formulas, without anything around them. -/
def Yields (registry : Registry) (cs : List Char) (formulas : List Formula) : Prop :=
  ∃ trees, Grammar.Formulas cs trees ∧ (∀ tree ∈ trees, tree.Admitted registry) ∧
    trees.map FormulaTree.meaning = formulas

variable {registry : Registry} {cs : List Char} {formulas : List Formula}

theorem yields_of_ofDirective {directive : String} (hcs : IsTrimmed directive.toList)
    (hcomment : ¬ commentStart <+: directive.toList)
    (h : Formula.ofDirective registry directive = .ok formulas) :
    Yields registry directive.toList formulas := by
  obtain ⟨trees, hroot⟩ := Formula.root_of_ofDirective h
  have hmeaning := (Formula.ofDirective_of_derives hroot).mp h
  rw [Text.trim_eq_self hcs] at hroot
  exact ⟨trees, hroot.formulas_of_bare hcs hcomment, hmeaning⟩

theorem Yields.append {colons ds : List Char} {more : List Formula}
    (hcs : Yields registry cs formulas) (hcolons : Grammar.Spaced [':', ':'] colons)
    (hds : Yields registry ds more) : Yields registry (cs ++ colons ++ ds) (formulas ++ more) := by
  obtain ⟨ts, hts, htsAdmitted, rfl⟩ := hcs
  obtain ⟨us, hus, husAdmitted, rfl⟩ := hds
  exact ⟨ts ++ us, hts.append hcolons hus, List.forall_mem_append.mpr ⟨htsAdmitted, husAdmitted⟩,
    List.map_append⟩

/-- Formulas are read on their own. -/
theorem Yields.ofDirective {directive : String} (h : Yields registry directive.toList formulas) :
    Formula.ofDirective registry directive = .ok formulas := by
  obtain ⟨trees, htrees, hmeaning⟩ := h
  exact (Formula.ofDirective_of_derives htrees.root).mpr hmeaning

/-- Formulas are read in the comment that marks a directive. -/
theorem Yields.ofDirective_wrapped {directive : String} {mark closing : List Char}
    (h : Yields registry cs formulas) (hmark : Grammar.Spaced commentName mark)
    (hclosing : Grammar.Gap closing)
    (hdirective : directive.toList = commentStart ++ mark ++ cs ++ closing ++ ['-', '-', '>']) :
    Formula.ofDirective registry directive = .ok formulas := by
  obtain ⟨trees, htrees, hadmitted, hmeaning⟩ := h
  have hroot := Grammar.Root.wrapped .nil hmark htrees hclosing .nil
  rw [List.nil_append, List.append_nil] at hroot
  have htrimmed : IsTrimmed (commentStart ++ mark ++ cs ++ closing ++ ['-', '-', '>']) :=
    isTrimmed_of_ends (Text.stops_of_head rfl _) ((endsVisibly_concat ['-', '-'] rfl).append _)
  refine (Formula.ofDirective_of_derives ?_).mpr ⟨hadmitted, hmeaning⟩
  rwa [hdirective, Text.trim_eq_self htrimmed]

theorem Joined.yields {texts : List (List Char)} {joined : List Char} (h : Joined texts joined)
    {lists : List (List Formula)} (hyields : List.Forall₂ (Yields registry) texts lists) :
    Yields registry joined lists.flatten := by
  induction h generalizing lists with
  | one cs =>
    obtain ⟨formulas, rest, hfirst, hrest, rfl⟩ := List.forall₂_cons_left_iff.mp hyields
    cases hrest
    rwa [List.flatten_singleton]
  | more cs hcolons _ ih =>
    obtain ⟨formulas, rest, hfirst, hrest, rfl⟩ := List.forall₂_cons_left_iff.mp hyields
    exact hfirst.append hcolons (ih hrest)

end Directive

open Directive

/-- Directives compose. Trimmed directives outside of comments that are joined by colons, with any
gaps around the colons, are read as the formulas of all of them in order, on their own and in the
comment that marks a directive. Conversely each formula of any directive is what its source alone is
read as. -/
theorem Formula.ofDirective_joined (registry : Registry) :
    (∀ (directives : List String) (lists : List (List Formula)) (joined : String),
      (∀ directive ∈ directives,
        Text.trimmed directive = directive ∧ ¬ commentStart <+: directive.toList) →
      directives.mapM (ofDirective registry) = .ok lists →
      Joined (directives.map String.toList) joined.toList →
      ofDirective registry joined = .ok lists.flatten ∧
        ∀ (wrapped : String) (mark closing : List Char),
          Grammar.Spaced commentName mark → Grammar.Gap closing →
          wrapped.toList = commentStart ++ mark ++ joined.toList ++ closing ++ ['-', '-', '>'] →
          ofDirective registry wrapped = .ok lists.flatten) ∧
    ∀ (directive : String) (formulas : List Formula),
      ofDirective registry directive = .ok formulas →
      ∀ formula ∈ formulas, ofDirective registry formula.source = .ok [formula] := by
  refine ⟨fun directives lists joined hbare hlists hjoined => ?compose,
    fun directive formulas hread formula hformula => ?alone⟩
  case compose =>
    have hyields : List.Forall₂ (Yields registry) (directives.map String.toList) lists := by
      rw [List.forall₂_map_left_iff]
      refine ((List.forall₂_and_left _ _).mpr ⟨hbare, mapM_eq_ok_iff.mp hlists⟩).imp ?_
      rintro directive formulas ⟨⟨htrimmed, hcomment⟩, hread⟩
      have hcs : Text.trim directive.toList = directive.toList :=
        String.toList_ofList.symm.trans (congrArg String.toList htrimmed)
      exact yields_of_ofDirective (hcs ▸ Text.isTrimmed_trim _) hcomment hread
    have hall := hjoined.yields hyields
    exact ⟨hall.ofDirective, fun wrapped mark closing hmark hclosing hwrapped =>
      hall.ofDirective_wrapped hmark hclosing hwrapped⟩
  case alone =>
    obtain ⟨piece, tree, hpiece, hadmitted, rfl⟩ := exists_tree_of_ofDirective hread hformula
    have hsource : tree.meaning.source.toList = piece := hpiece.toList_source
    have hyields : Yields registry tree.meaning.source.toList [tree.meaning] := by
      rw [hsource]
      exact ⟨[tree], .one hpiece, List.forall_mem_singleton.mpr hadmitted, rfl⟩
    exact hyields.ofDirective

/-- A text with colons and the end of a comment in it, and an address of the last column right before
the end of the comment. -/
theorem Formula.ofDirective_joined_lookalikes :
    let first := "@2$1=\"a :: b -->\";hm"
    let second := "@3=(1 - 2)::$>=@>$>"
    let joined := "@2$1=\"a :: b -->\";hm\t::@3=(1 - 2)::$>=@>$>"
    let last : Formula :=
      ⟨"$>=@>$>", .cell ⟨none, some .last⟩, .reference (.cell ⟨some .last, some .last⟩), none⟩
    let lists : List (List Formula) :=
      [[⟨first, .cell ⟨some (.index 2), some (.index 1)⟩, .literal "a :: b -->",
          some .hoursMinutes⟩],
        [⟨"@3=(1 - 2)", .cell ⟨some (.index 3), none⟩,
          .algebraic .subtract (.literal "1") (.literal "2"), none⟩, last]]
    (∀ directive ∈ [first, second],
        Text.trimmed directive = directive ∧ ¬ commentStart <+: directive.toList) ∧
      [first, second].mapM (ofDirective .empty) = .ok lists ∧
      Joined ([first, second].map String.toList) joined.toList ∧
      ofDirective .empty joined = .ok lists.flatten ∧
      ofDirective .empty ("<!-- TBLFM: " ++ joined ++ "-->") = .ok lists.flatten ∧
      ofDirective .empty last.source = .ok [last] := by
  intro first second joined last lists
  have hbare : ∀ directive ∈ [first, second],
      Text.trimmed directive = directive ∧ ¬ commentStart <+: directive.toList := by
    decide +kernel
  have hlists : [first, second].mapM (ofDirective .empty) = .ok lists := by decide +kernel
  have hnone : Grammar.Gap [] := fun _ hc => (List.not_mem_nil hc).elim
  have htab : Grammar.Gap ['\t'] := fun _ hc => .inr (List.mem_singleton.mp hc)
  have hspace : Grammar.Gap [' '] := fun _ hc => .inl (List.mem_singleton.mp hc)
  have hjoined : Joined ([first, second].map String.toList) joined.toList := by
    have hcolons : Grammar.Spaced [':', ':'] (['\t'] ++ [':', ':'] ++ []) := .mk htab hnone
    have htexts := Joined.more first.toList hcolons (.one second.toList)
    have heq : first.toList ++ (['\t'] ++ [':', ':'] ++ []) ++ second.toList = joined.toList := by
      decide +kernel
    rwa [heq] at htexts
  obtain ⟨hread, hwrapped⟩ := (ofDirective_joined .empty).1 _ _ _ hbare hlists hjoined
  exact ⟨hbare, hlists, hjoined, hread,
    hwrapped _ _ _ (.mk hspace hspace) hnone (by decide +kernel),
    (ofDirective_joined .empty).2 _ _ hread last (by simp [lists])⟩

end TableCalc
