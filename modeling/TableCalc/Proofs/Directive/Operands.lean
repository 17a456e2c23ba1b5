import TableCalc.Proofs.Directive.Composition

/-!
Texts that stand for expressions. What a text means as an operand is what the directive that
computes the first cell from it is read as; gaps in front of the text do not count, and behind the
text nothing may follow.
-/

namespace TableCalc.Directive

open Text (Reads Stops)

/-- The directive that computes the first cell from a text. -/
def assignment (text : String) : String := "@1$1=" ++ text

/-- The formula that computes the first cell from an expression that is written as a text. -/
def assigned (text : String) (expr : Expr) : Formula :=
  ⟨assignment text, .cell ⟨some (.index 1), some (.index 1)⟩, expr, none⟩

/-- A text that is read as an expression. -/
def ReadsAs (registry : Registry) (text : String) (expr : Expr) : Prop :=
  Formula.ofDirective registry (assignment text) = .ok [assigned text expr]

instance {registry : Registry} {text : String} {expr : Expr} :
    Decidable (ReadsAs registry text expr) :=
  inferInstanceAs (Decidable (_ = _))

/-- The first cell as it is written, by its row and its column. -/
def firstCell : ReferenceTree := .cell (.both (.index ['1']) (.index ['1']))

theorem derives_firstCell : Grammar.Reference ['@', '1', '$', '1'] firstCell := by
  have hdigits : Grammar.Digits ['1'] := ⟨by simp, by simp⟩
  exact .cell (.both (.index hdigits) (.index hdigits))

theorem fits_firstCell : firstCell.All AddressTree.Fits :=
  ⟨Nat.le_of_ble_eq_true rfl, Nat.le_of_ble_eq_true rfl⟩

theorem isAbsolute_firstCell : firstCell.All AddressTree.IsAbsolute :=
  ⟨Nat.succ_ne_zero 0, Nat.succ_ne_zero 0⟩

theorem toList_assignment (text : String) :
    (assignment text).toList = ['@', '1', '$', '1'] ++ '=' :: text.toList :=
  String.toList_append

theorem spaced_equals {g : List Char} (hg : Grammar.Gap g) : Grammar.Spaced ['='] ('=' :: g) :=
  .mk .nil hg

theorem gap_of_stops {cs : List Char} (h : Stops isGap cs) : (gap cs).val = cs :=
  gap_append Grammar.Gap.nil h

variable {registry : Registry} {text : String} {expr : Expr}

/-- A formula for the first cell reads its operand behind the equals sign. -/
theorem reads_operand_of_formula {cs rest : List Char} {t : FormulaTree}
    (h : Reads (formula? (['@', '1', '$', '1'] ++ '=' :: cs)) t rest) :
    ∃ mid, Reads (operand? (gap cs).val) t.operand mid ∧ (t.display = none → mid = rest) := by
  obtain ⟨target, c₁, hread, c₂, hsign, operand, c₃, hoperand, hmore⟩ := formula?_reads.mp h
  have hcell : Reads (reference? (['@', '1', '$', '1'] ++ '=' :: cs)) firstCell ('=' :: cs) :=
    reference?_of_reference derives_firstCell (Text.stops_of_head rfl _)
  obtain ⟨_, hread⟩ := hread
  obtain ⟨_, hcell⟩ := hcell
  rw [hcell] at hread
  cases hread
  obtain ⟨mid, hequals, rfl⟩ := sign?_leaves.mp hsign
  have hgap : (gap ('=' :: cs)).val = '=' :: cs := gap_of_stops (Text.stops_of_head rfl _)
  rw [hgap] at hequals
  cases hequals
  rcases hmore with ⟨display, _, rfl⟩ | ⟨_, rfl, rfl⟩
  · exact ⟨c₃, hoperand, fun hnone => nomatch hnone⟩
  · exact ⟨c₃, hoperand, fun _ => rfl⟩

/-- Every formula for the first cell that a directive starts with reads its operand behind the
equals sign. -/
theorem exists_reads_operand {formulas : List Formula}
    (h : Formula.ofDirective registry (assignment text) = .ok formulas)
    (htrimmed : Text.IsTrimmed (assignment text).toList) :
    ∃ tree rest, Reads (operand? (gap text.toList).val) tree rest := by
  obtain ⟨trees, hroot⟩ := Formula.root_of_ofDirective h
  rw [Text.trim_eq_self htrimmed, toList_assignment] at hroot
  have hcomment : ¬ commentStart <+: ['@', '1', '$', '1'] ++ '=' :: text.toList := by
    rintro ⟨tail, htail⟩
    cases htail
  have htrees := hroot.formulas_of_bare (toList_assignment text ▸ htrimmed) hcomment
  have hread : Reads (formulas? (_ ++ [])) trees [] :=
    formulas?_of_formulas htrees (Text.stops_nil _)
  rw [List.append_nil] at hread
  obtain ⟨t, mid, hformula, _⟩ := formulas?_reads.mp hread
  obtain ⟨rest, hoperand, _⟩ := reads_operand_of_formula hformula
  exact ⟨t.operand, rest, hoperand⟩

theorem isTrimmed_assignment (h : EndsVisibly text.toList) :
    Text.IsTrimmed (assignment text).toList := by
  rw [toList_assignment]
  exact isTrimmed_of_ends (Text.stops_of_head rfl _) (h.append ['@', '1', '$', '1', '='])

/-- A derivable formula that passes the checks is read on its own. -/
theorem ofDirective_of_formula {cs : List Char} {tree : FormulaTree} (h : Grammar.Formula cs tree)
    (hadmitted : tree.Admitted registry) :
    Formula.ofDirective registry (.ofList cs) = .ok [tree.meaning] := by
  have hroot := (Grammar.Formulas.one h).root
  rw [← String.toList_ofList (l := cs)] at hroot
  exact (Formula.ofDirective_of_derives hroot).mpr ⟨List.forall_mem_singleton.mpr hadmitted, rfl⟩

/-- The formula of a directive that computes the first cell, as it is written. -/
def assignmentTree (text : String) (operand : OperandTree) : FormulaTree :=
  ⟨assignment text, firstCell, operand, none⟩

theorem root_assignment {tree : OperandTree} (h : Grammar.Operand (gap text.toList).val tree) :
    Grammar.Root (Text.trim (assignment text).toList) [assignmentTree text tree] := by
  obtain ⟨g, hg, hsplit⟩ := gap_splits text.toList
  have hformula := Grammar.Formula.plain derives_firstCell (spaced_equals hg) h
  have htext : ['@', '1', '$', '1'] ++ '=' :: g ++ (gap text.toList).val =
      (assignment text).toList := by
    rw [List.append_assoc ['@', '1', '$', '1'], List.cons_append (a := '='), ← hsplit,
      ← toList_assignment]
  rw [htext, String.ofList_toList] at hformula
  exact (Grammar.Formulas.one hformula).root

theorem admitted_assignmentTree_iff {tree : OperandTree} :
    (assignmentTree text tree).Admitted registry ↔ tree.Admitted registry :=
  ⟨fun h => h.operand, fun h =>
    ⟨fits_firstCell, isAbsolute_firstCell, h, fun _ hdisplay => nomatch hdisplay⟩⟩

/-- What stands behind the equals sign of a formula without a display is an operand. -/
theorem operand_of_formula {tree : FormulaTree}
    (h : Grammar.Formula (assignment text).toList tree) (hdisplay : tree.display = none) :
    Grammar.Operand (gap text.toList).val tree.operand := by
  have hread : Reads (formula? ((assignment text).toList ++ [])) tree [] :=
    formula?_of_formula h (Text.stops_nil _)
  rw [List.append_nil, toList_assignment] at hread
  obtain ⟨mid, hoperand, hend⟩ := reads_operand_of_formula hread
  obtain ⟨os, hos, hsplit⟩ := operand?_splits hoperand
  rw [hsplit, hend hdisplay, List.append_nil]
  exact hos

/-- What texts are read as is told by the grammar. -/
theorem readsAs_iff :
    ReadsAs registry text expr ↔
      ∃ tree, Grammar.Operand (gap text.toList).val tree ∧ tree.Admitted registry ∧
        tree.meaning = expr := by
  constructor
  · intro h
    obtain ⟨piece, tree, hpiece, hadmitted, hmeaning⟩ :=
      exists_tree_of_ofDirective h (List.mem_singleton_self _)
    have hsource : (assignment text).toList = piece := by
      rw [← hpiece.toList_source]
      exact congrArg (fun formula => formula.source.toList) hmeaning.symm
    have hdisplay : tree.display = none :=
      Option.map_eq_none_iff.mp (congrArg Formula.display hmeaning)
    exact ⟨tree.operand, operand_of_formula (hsource ▸ hpiece) hdisplay, hadmitted.operand,
      congrArg Formula.expr hmeaning⟩
  · rintro ⟨tree, htree, hadmitted, rfl⟩
    exact (Formula.ofDirective_of_derives (root_assignment htree)).mpr
      ⟨List.forall_mem_singleton.mpr (admitted_assignmentTree_iff.mpr hadmitted), rfl⟩

theorem gap_of_operand {cs : List Char} {tree : OperandTree} (h : Grammar.Operand cs tree) :
    (gap cs).val = cs := by
  have hstop : Stops isGap ([] ++ (cs ++ [])) := stops_operand h isGap_of_startsOperand []
  rw [List.append_nil, List.nil_append] at hstop
  exact gap_of_stops hstop

theorem readsAs_of_operand {cs : List Char} {tree : OperandTree} (h : Grammar.Operand cs tree)
    (hadmitted : tree.Admitted registry) : ReadsAs registry (.ofList cs) tree.meaning := by
  refine readsAs_iff.mpr ⟨tree, ?_, hadmitted, rfl⟩
  rwa [String.toList_ofList, gap_of_operand h]

theorem ReadsAs.exists_operand (h : ReadsAs registry text expr) :
    ∃ g cs tree, Grammar.Gap g ∧ text.toList = g ++ cs ∧ Grammar.Operand cs tree ∧
      tree.Admitted registry ∧ tree.meaning = expr := by
  obtain ⟨tree, htree, hadmitted, hmeaning⟩ := readsAs_iff.mp h
  obtain ⟨g, hg, hsplit⟩ := gap_splits text.toList
  exact ⟨g, _, tree, hg, hsplit, htree, hadmitted, hmeaning⟩

theorem Grammar.name_iff {cs : List Char} :
    Name cs ↔ (cs.head?.any Char.isAlpha && cs.tail.all isNameChar) = true := by
  constructor
  · rintro ⟨hc, hcs⟩
    simpa [hc, isNameChar_iff] using hcs
  · intro h
    cases cs with
    | nil => simp at h
    | cons c cs =>
      simp only [List.head?_cons, Option.any_some, List.tail_cons, Bool.and_eq_true,
        List.all_eq_true, isNameChar_iff] at h
      exact .mk h.1 h.2

instance {cs : List Char} : Decidable (Grammar.Name cs) :=
  decidable_of_iff _ Grammar.name_iff.symm

/-- A call of a function as it is written. -/
def callOf (name text : String) : String := name ++ "(" ++ text ++ ")"

theorem toList_callOf (name text : String) :
    (callOf name text).toList = name.toList ++ '(' :: text.toList ++ [')'] := by
  simp [callOf]

/-- A call by a name that can name a function is written as one, whether there is such a function or
not. -/
theorem ReadsAs.exists_call {name : String} (h : ReadsAs registry text expr)
    (hname : Grammar.Name name.toList) (hif : name ≠ "if") :
    ∃ tree, tree.Admitted registry ∧ tree.meaning = expr ∧
      Grammar.Operand (gap (callOf name text).toList).val (.call name tree) := by
  obtain ⟨g, cs, tree, hg, hsplit, htree, hadmitted, hmeaning⟩ := h.exists_operand
  have hreserved : name.toList ≠ ['i', 'f'] := fun heq => hif (String.toList_inj.mp heq)
  have hcall := Grammar.Operand.call hname hreserved hg htree .nil
  have htext : name.toList ++ '(' :: g ++ cs ++ [] ++ [')'] = (callOf name text).toList := by
    rw [toList_callOf, hsplit]
    simp
  rw [htext, String.ofList_toList] at hcall
  exact ⟨tree, hadmitted, hmeaning, (gap_of_operand hcall).symm ▸ hcall⟩

theorem ReadsAs.call {name : String} (h : ReadsAs registry text expr)
    (hname : Grammar.Name name.toList) (hif : name ≠ "if")
    (hexact : registry.isExactName name = true) :
    ReadsAs registry (callOf name text) (.aggregate name expr) := by
  obtain ⟨tree, hadmitted, rfl, hcall⟩ := h.exists_call hname hif
  exact readsAs_iff.mpr ⟨_, hcall, ⟨isExactName_iff.mp hexact, hadmitted⟩, rfl⟩

end TableCalc.Directive
