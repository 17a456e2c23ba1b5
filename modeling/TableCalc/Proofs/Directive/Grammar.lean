import TableCalc.Directive.Tree

/-!
The context-free grammar of directives. Each relation is a nonterminal between a text and the tree
that a derivation of the text builds, each constructor is one of its alternatives, and alternatives
are not ordered. A repetition may have any length, whatever stands behind it. The one condition that
is not context-free, that a call does not look like a condition, is that its name is not `if`.
-/

namespace TableCalc.Directive.Grammar

/-- Blanks and tabs, any number of them. -/
def Gap (cs : List Char) : Prop := ∀ c ∈ cs, c = ' ' ∨ c = '\t'

/-- A sign with gaps around it. -/
inductive Spaced (sign : List Char) : List Char → Prop where
  | mk {before after : List Char} (hbefore : Gap before) (hafter : Gap after) :
      Spaced sign (before ++ sign ++ after)

def Digits (cs : List Char) : Prop := cs ≠ [] ∧ ∀ c ∈ cs, c.isDigit = true

inductive Address : List Char → AddressTree → Prop where
  | plus {ds : List Char} (h : Digits ds) : Address ('+' :: ds) (.offset false ds)
  | minus {ds : List Char} (h : Digits ds) : Address ('-' :: ds) (.offset true ds)
  | first : Address ['<'] .first
  | last : Address ['>'] .last
  | anchor : Address ['I'] .anchor
  | index {ds : List Char} (h : Digits ds) : Address ds (.index ds)

inductive Cell : List Char → CellTree → Prop where
  | row {rs : List Char} {r : AddressTree} (hr : Address rs r) : Cell ('@' :: rs) (.row r)
  | both {rs cs : List Char} {r c : AddressTree} (hr : Address rs r) (hc : Address cs c) :
      Cell ('@' :: rs ++ '$' :: cs) (.both r c)
  | column {cs : List Char} {c : AddressTree} (hc : Address cs c) : Cell ('$' :: cs) (.column c)

/-- A range or a single cell. -/
inductive Reference : List Char → ReferenceTree → Prop where
  | range {ss fs : List Char} {s f : CellTree} (hs : Cell ss s) (hf : Cell fs f) :
      Reference (ss ++ '.' :: '.' :: fs) (.range s f)
  | cell {cs : List Char} {c : CellTree} (h : Cell cs c) : Reference cs (.cell c)

inductive Unsigned : List Char → Prop where
  | whole {ds : List Char} (h : Digits ds) : Unsigned ds
  | fraction {ds fs : List Char} (hd : Digits ds) (hf : Digits fs) : Unsigned (ds ++ '.' :: fs)

inductive Number : List Char → Prop where
  | plain {cs : List Char} (h : Unsigned cs) : Number cs
  | negative {cs : List Char} (h : Unsigned cs) : Number ('-' :: cs)

/-- The text between quotes has no quote. -/
def Quotable (cs : List Char) : Prop := ∀ c ∈ cs, c ≠ '"'

/-- A letter, then letters, digits and underscores. -/
inductive Name : List Char → Prop where
  | mk {c : Char} {cs : List Char} (hc : c.isAlpha = true)
      (hcs : ∀ d ∈ cs, d.isAlphanum = true ∨ d = '_') : Name (c :: cs)

inductive Comparison : List Char → Comparator → Prop where
  | ge : Comparison ['>', '='] .ge
  | le : Comparison ['<', '='] .le
  | eq : Comparison ['=', '='] .eq
  | ne : Comparison ['!', '='] .ne
  | gt : Comparison ['>'] .gt
  | lt : Comparison ['<'] .lt

inductive Sign : List Char → Operation → Prop where
  | add : Sign ['+'] .add
  | subtract : Sign ['-'] .subtract
  | multiply : Sign ['*'] .multiply
  | divide : Sign ['/'] .divide

mutual

inductive Operand : List Char → OperandTree → Prop where
  | conditional {opening left sign right comma thenText comma' elseText closing : List Char}
      {comparisonSign : List Char} {l r t e : OperandTree} {comparator : Comparator}
      (hopening : Spaced ['('] opening) (hleft : Operand left l)
      (hcomparison : Comparison comparisonSign comparator) (hsign : Spaced comparisonSign sign)
      (hright : Operand right r) (hcomma : Spaced [','] comma) (hthen : Operand thenText t)
      (hcomma' : Spaced [','] comma') (helse : Operand elseText e) (hclosing : Gap closing) :
      Operand ('i' :: 'f' :: opening ++ left ++ sign ++ right ++ comma ++ thenText ++ comma' ++
        elseText ++ closing ++ [')']) (.conditional l comparator r t e)
  | call {name opening text closing : List Char} {argument : OperandTree} (hname : Name name)
      (hif : name ≠ ['i', 'f']) (hopening : Gap opening) (hargument : Operand text argument)
      (hclosing : Gap closing) :
      Operand (name ++ '(' :: opening ++ text ++ closing ++ [')']) (.call (.ofList name) argument)
  | reference {cs : List Char} {tree : ReferenceTree} (h : Reference cs tree) :
      Operand cs (.reference tree)
  | group {opening text links closing : List Char} {head : OperandTree} {tail : ChainTree}
      (hopening : Gap opening) (hhead : Operand text head) (htail : Chain links tail)
      (hclosing : Gap closing) :
      Operand ('(' :: opening ++ text ++ links ++ closing ++ [')']) (.group head tail)
  | number {cs : List Char} (h : Number cs) : Operand cs (.number (.ofList cs))
  | text {cs : List Char} (h : Quotable cs) : Operand ('"' :: cs ++ ['"']) (.text (.ofList cs))

/-- The repetition in a group: signs of operations with gaps around them, and operands. -/
inductive Chain : List Char → ChainTree → Prop where
  | done : Chain [] .done
  | link {sign spaced text more : List Char} {op : Operation} {operand : OperandTree}
      {tail : ChainTree} (hsign : Sign sign op) (hspaced : Spaced sign spaced)
      (hoperand : Operand text operand) (htail : Chain more tail) :
      Chain (spaced ++ text ++ more) (.link op operand tail)

end

inductive Display : List Char → DisplayTree → Prop where
  | fixed {ds : List Char} (h : Digits ds) : Display ('%' :: '.' :: ds ++ ['f']) (.fixed ds)
  | dateTime : Display ['d', 't'] .dateTime
  | hoursMinutes : Display ['h', 'm'] .hoursMinutes

/-- A formula keeps its own text. -/
inductive Formula : List Char → FormulaTree → Prop where
  | plain {ts equals os : List Char} {target : ReferenceTree} {operand : OperandTree}
      (htarget : Reference ts target) (hequals : Spaced ['='] equals)
      (hoperand : Operand os operand) :
      Formula (ts ++ equals ++ os) ⟨.ofList (ts ++ equals ++ os), target, operand, none⟩
  | displayed {ts equals os semicolon ds : List Char} {target : ReferenceTree}
      {operand : OperandTree} {display : DisplayTree} (htarget : Reference ts target)
      (hequals : Spaced ['='] equals) (hoperand : Operand os operand)
      (hsemicolon : Spaced [';'] semicolon) (hdisplay : Display ds display) :
      Formula (ts ++ equals ++ os ++ semicolon ++ ds)
        ⟨.ofList (ts ++ equals ++ os ++ semicolon ++ ds), target, operand, some display⟩

inductive Formulas : List Char → List FormulaTree → Prop where
  | one {cs : List Char} {formula : FormulaTree} (h : Formula cs formula) : Formulas cs [formula]
  | more {cs colons rest : List Char} {formula : FormulaTree} {formulas : List FormulaTree}
      (hformula : Formula cs formula) (hcolons : Spaced [':', ':'] colons)
      (hrest : Formulas rest formulas) : Formulas (cs ++ colons ++ rest) (formula :: formulas)

/-- A whole directive, in the comment that marks it or not. -/
inductive Root : List Char → List FormulaTree → Prop where
  | bare {before cs after : List Char} {formulas : List FormulaTree} (hbefore : Gap before)
      (h : Formulas cs formulas) (hafter : Gap after) :
      Root (before ++ cs ++ after) formulas
  | wrapped {before mark cs closing after : List Char} {formulas : List FormulaTree}
      (hbefore : Gap before) (hmark : Spaced ['T', 'B', 'L', 'F', 'M', ':'] mark)
      (h : Formulas cs formulas) (hclosing : Gap closing) (hafter : Gap after) :
      Root (before ++ ['<', '!', '-', '-'] ++ mark ++ cs ++ closing ++ ['-', '-', '>'] ++ after)
        formulas

end TableCalc.Directive.Grammar
