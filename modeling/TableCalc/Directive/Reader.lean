import TableCalc.Directive.Tree
import TableCalc.Text.Rest

/-!
Reading the written form of directives. Blanks and tabs may stand around most signs, but not inside
references, numbers and names. Choices are tried in order and the first one that fits is taken.
-/

namespace TableCalc.Directive

open Text (Rest Remaining)

def isGap (c : Char) : Bool := c == ' ' || c == '\t'

def gap (cs : List Char) : Remaining cs := (Text.many isGap cs).2

/-- Reads a sign and the gaps around it. -/
def sign? (first : Char) (more cs : List Char) : Option (Rest cs) := do
  let ⟨start, hstart⟩ := gap cs
  let ⟨afterSign, hsign⟩ ← Text.word? first more start
  let ⟨rest, hrest⟩ := gap afterSign
  have h := Text.lt_of_le_lt hstart hsign
  return ⟨rest, Text.lt_of_lt_le h hrest⟩

def digits? (cs : List Char) : Option (List Char × Rest cs) := Text.some? Char.isDigit cs

/-- Reads a plus or a minus; the result says whether it is a minus. -/
def plusMinus? (cs : List Char) : Option (Bool × Rest cs) :=
  (Text.one? (fun c => c == '+' || c == '-') cs).map fun (c, rest) => (c == '-', rest)

def offset? (cs : List Char) : Option (AddressTree × Rest cs) := do
  let (negative, ⟨afterSign, hsign⟩) ← plusMinus? cs
  let (digits, ⟨rest, hrest⟩) ← digits? afterSign
  return (.offset negative digits, ⟨rest, Text.lt_of_lt_lt hsign hrest⟩)

def address? (cs : List Char) : Option (AddressTree × Rest cs) :=
  offset? cs <|>
    (Text.char? '<' cs).map (.first, ·) <|>
    (Text.char? '>' cs).map (.last, ·) <|>
    (Text.char? 'I' cs).map (.anchor, ·) <|>
    (digits? cs).map fun (digits, rest) => (.index digits, rest)

def coordinate? (axis : Axis) (cs : List Char) : Option (AddressTree × Rest cs) := do
  let ⟨afterSigil, hsigil⟩ ← Text.char? axis.sigil cs
  let (address, ⟨rest, hrest⟩) ← address? afterSigil
  return (address, ⟨rest, Text.lt_of_lt_lt hsigil hrest⟩)

/-- Reads a cell reference that starts with a row. -/
def rowCell? (cs : List Char) : Option (CellTree × Rest cs) := do
  let (row, ⟨afterRow, hrow⟩) ← coordinate? .row cs
  match coordinate? .column afterRow with
  | some (column, ⟨rest, hrest⟩) =>
      return (.both row column, ⟨rest, Text.lt_of_lt_lt hrow hrest⟩)
  | none => return (.row row, ⟨afterRow, hrow⟩)

def cell? (cs : List Char) : Option (CellTree × Rest cs) :=
  rowCell? cs <|> (coordinate? .column cs).map fun (column, rest) => (.column column, rest)

def rangeEnd? (cs : List Char) : Option (CellTree × Rest cs) := do
  let ⟨afterDots, hdots⟩ ← Text.word? '.' ['.'] cs
  let (cell, ⟨rest, hrest⟩) ← cell? afterDots
  return (cell, ⟨rest, Text.lt_of_lt_lt hdots hrest⟩)

def reference? (cs : List Char) : Option (ReferenceTree × Rest cs) := do
  let (start, ⟨afterStart, hstart⟩) ← cell? cs
  match rangeEnd? afterStart with
  | some (finish, ⟨rest, hrest⟩) =>
      return (.range start finish, ⟨rest, Text.lt_of_lt_lt hstart hrest⟩)
  | none => return (.cell start, ⟨afterStart, hstart⟩)

def fraction? (cs : List Char) : Option (List Char × Rest cs) := do
  let ⟨afterPoint, hpoint⟩ ← Text.char? '.' cs
  let (digits, ⟨rest, hrest⟩) ← digits? afterPoint
  return ('.' :: digits, ⟨rest, Text.lt_of_lt_lt hpoint hrest⟩)

def unsigned? (cs : List Char) : Option (List Char × Rest cs) := do
  let (whole, ⟨afterWhole, hwhole⟩) ← digits? cs
  match fraction? afterWhole with
  | some (fraction, ⟨rest, hrest⟩) =>
      return (whole ++ fraction, ⟨rest, Text.lt_of_lt_lt hwhole hrest⟩)
  | none => return (whole, ⟨afterWhole, hwhole⟩)

def number? (cs : List Char) : Option (OperandTree × Rest cs) :=
  match Text.char? '-' cs with
  | some ⟨afterSign, hsign⟩ => do
      let (number, ⟨rest, hrest⟩) ← unsigned? afterSign
      return (.number (.ofList ('-' :: number)), ⟨rest, Text.lt_of_lt_lt hsign hrest⟩)
  | none => (unsigned? cs).map fun (number, rest) => (.number (.ofList number), rest)

def text? (cs : List Char) : Option (OperandTree × Rest cs) := do
  let ⟨afterQuote, hquote⟩ ← Text.char? '"' cs
  let (text, ⟨afterText, htext⟩) := Text.many (· != '"') afterQuote
  let ⟨rest, hrest⟩ ← Text.char? '"' afterText
  have h := Text.lt_of_lt_le hquote htext
  return (.text (.ofList text), ⟨rest, Text.lt_of_lt_lt h hrest⟩)

/-- Reads a comparison sign. The longer signs come first. -/
def comparator? (cs : List Char) : Option (Comparator × Rest cs) :=
  (Text.word? '>' ['='] cs).map (.ge, ·) <|>
    (Text.word? '<' ['='] cs).map (.le, ·) <|>
    (Text.word? '=' ['='] cs).map (.eq, ·) <|>
    (Text.word? '!' ['='] cs).map (.ne, ·) <|>
    (Text.char? '>' cs).map (.gt, ·) <|>
    (Text.char? '<' cs).map (.lt, ·)

def operation? (cs : List Char) : Option (Operation × Rest cs) :=
  (Text.char? '+' cs).map (.add, ·) <|>
    (Text.char? '-' cs).map (.subtract, ·) <|>
    (Text.char? '*' cs).map (.multiply, ·) <|>
    (Text.char? '/' cs).map (.divide, ·)

def withGaps? {α : Type} (item? : (cs : List Char) → Option (α × Rest cs)) (cs : List Char) :
    Option (α × Rest cs) := do
  let ⟨start, hstart⟩ := gap cs
  let (item, ⟨afterItem, hitem⟩) ← item? start
  let ⟨rest, hrest⟩ := gap afterItem
  have h := Text.lt_of_le_lt hstart hitem
  return (item, ⟨rest, Text.lt_of_lt_le h hrest⟩)

def isNameChar (c : Char) : Bool := c.isAlphanum || c == '_'

/-- Reads a name: a letter, then letters, digits and underscores. -/
def name? (cs : List Char) : Option (List Char × Rest cs) := do
  let (first, ⟨afterFirst, hfirst⟩) ← Text.one? Char.isAlpha cs
  let (more, ⟨rest, hrest⟩) := Text.many isNameChar afterFirst
  return (first :: more, ⟨rest, Text.lt_of_lt_le hfirst hrest⟩)

/-- Reads the name of a function and the parenthesis right after it. The name `if` is kept for
conditions. -/
def callee? (cs : List Char) : Option (String × Rest cs) := do
  let (name, ⟨afterName, hname⟩) ← name? cs
  if name = ['i', 'f'] then none
  else
    let ⟨afterParen, hparen⟩ ← Text.char? '(' afterName
    let ⟨rest, hrest⟩ := gap afterParen
    have h := Text.lt_of_lt_lt hname hparen
    return (.ofList name, ⟨rest, Text.lt_of_lt_le h hrest⟩)

/-- Reads `if` and a parenthesis. -/
def conditionalStart? (cs : List Char) : Option (Rest cs) := do
  let ⟨afterWord, hword⟩ ← Text.word? 'i' ['f'] cs
  let ⟨rest, hrest⟩ ← sign? '(' [] afterWord
  return ⟨rest, Text.lt_of_lt_lt hword hrest⟩

mutual

def operand? (cs : List Char) : Option (OperandTree × Rest cs) :=
  conditional? cs <|> call? cs <|>
    (reference? cs).map (fun (reference, rest) => (.reference reference, rest)) <|>
    group? cs <|> number? cs <|> text? cs
termination_by 2 * cs.length + 1

def conditional? (cs : List Char) : Option (OperandTree × Rest cs) := do
  let ⟨c₁, h₁⟩ ← conditionalStart? cs
  let (left, ⟨c₂, h₂⟩) ← operand? c₁
  let (comparator, ⟨c₃, h₃⟩) ← withGaps? comparator? c₂
  let (right, ⟨c₄, h₄⟩) ← operand? c₃
  let ⟨c₅, h₅⟩ ← sign? ',' [] c₄
  let (thenBranch, ⟨c₆, h₆⟩) ← operand? c₅
  let ⟨c₇, h₇⟩ ← sign? ',' [] c₆
  let (elseBranch, ⟨c₈, h₈⟩) ← operand? c₇
  let ⟨c₉, h₉⟩ := gap c₈
  let ⟨rest, hrest⟩ ← Text.char? ')' c₉
  return (.conditional left comparator right thenBranch elseBranch, ⟨rest, by omega⟩)
termination_by 2 * cs.length

def call? (cs : List Char) : Option (OperandTree × Rest cs) := do
  let (name, ⟨c₁, h₁⟩) ← callee? cs
  let (argument, ⟨c₂, h₂⟩) ← operand? c₁
  let ⟨c₃, h₃⟩ := gap c₂
  let ⟨rest, hrest⟩ ← Text.char? ')' c₃
  return (.call name argument, ⟨rest, by omega⟩)
termination_by 2 * cs.length

def group? (cs : List Char) : Option (OperandTree × Rest cs) := do
  let ⟨c₁, h₁⟩ ← Text.char? '(' cs
  let ⟨c₂, h₂⟩ := gap c₁
  let (head, ⟨c₃, h₃⟩) ← operand? c₂
  let (tail, ⟨c₄, h₄⟩) := chain c₃
  let ⟨c₅, h₅⟩ := gap c₄
  let ⟨rest, hrest⟩ ← Text.char? ')' c₅
  return (.group head tail, ⟨rest, by omega⟩)
termination_by 2 * cs.length

def link? (cs : List Char) : Option ((Operation × OperandTree) × Rest cs) := do
  let (op, ⟨c₁, h₁⟩) ← withGaps? operation? cs
  let (operand, ⟨rest, hrest⟩) ← operand? c₁
  return ((op, operand), ⟨rest, Text.lt_of_lt_lt h₁ hrest⟩)
termination_by 2 * cs.length

def chain (cs : List Char) : ChainTree × Remaining cs :=
  match link? cs with
  | none => (.done, Text.unread cs)
  | some ((op, operand), ⟨c₁, h₁⟩) =>
      let (tail, ⟨rest, hrest⟩) := chain c₁
      (.link op operand tail, ⟨rest, Text.le_of_lt_le h₁ hrest⟩)
termination_by 2 * cs.length + 1

end

def fixed? (cs : List Char) : Option (DisplayTree × Rest cs) := do
  let ⟨c₁, h₁⟩ ← Text.word? '%' ['.'] cs
  let (digits, ⟨c₂, h₂⟩) ← digits? c₁
  let ⟨rest, hrest⟩ ← Text.char? 'f' c₂
  have h := Text.lt_of_lt_lt h₁ h₂
  return (.fixed digits, ⟨rest, Text.lt_of_lt_lt h hrest⟩)

def display? (cs : List Char) : Option (DisplayTree × Rest cs) :=
  fixed? cs <|>
    (Text.word? 'd' ['t'] cs).map (.dateTime, ·) <|>
    (Text.word? 'h' ['m'] cs).map (.hoursMinutes, ·)

def displayPart? (cs : List Char) : Option (DisplayTree × Rest cs) := do
  let ⟨c₁, h₁⟩ ← sign? ';' [] cs
  let (display, ⟨rest, hrest⟩) ← display? c₁
  return (display, ⟨rest, Text.lt_of_lt_lt h₁ hrest⟩)

/-- What was read of a text when `rest` is left. -/
def consumed (cs rest : List Char) : String := .ofList (cs.take (cs.length - rest.length))

def formula? (cs : List Char) : Option (FormulaTree × Rest cs) := do
  let (target, ⟨c₁, h₁⟩) ← reference? cs
  let ⟨c₂, h₂⟩ ← sign? '=' [] c₁
  let (operand, ⟨c₃, h₃⟩) ← operand? c₂
  have h₁₂ := Text.lt_of_lt_lt h₁ h₂
  have h := Text.lt_of_lt_lt h₁₂ h₃
  match displayPart? c₃ with
  | some (display, ⟨rest, hrest⟩) =>
      return (⟨consumed cs rest, target, operand, some display⟩,
        ⟨rest, Text.lt_of_lt_lt h hrest⟩)
  | none => return (⟨consumed cs c₃, target, operand, none⟩, ⟨c₃, h⟩)

def nextFormula? (cs : List Char) : Option (FormulaTree × Rest cs) := do
  let ⟨c₁, h₁⟩ ← sign? ':' [':'] cs
  let (formula, ⟨rest, hrest⟩) ← formula? c₁
  return (formula, ⟨rest, Text.lt_of_lt_lt h₁ hrest⟩)

def moreFormulas (cs : List Char) : List FormulaTree × Remaining cs :=
  match nextFormula? cs with
  | none => ([], Text.unread cs)
  | some (formula, ⟨c₁, h₁⟩) =>
      let (more, ⟨rest, hrest⟩) := moreFormulas c₁
      (formula :: more, ⟨rest, Text.le_of_lt_le h₁ hrest⟩)
termination_by cs.length
decreasing_by exact h₁

def formulas? (cs : List Char) : Option (List FormulaTree × Rest cs) := do
  let (formula, ⟨c₁, h₁⟩) ← formula? cs
  let (more, ⟨rest, hrest⟩) := moreFormulas c₁
  return (formula :: more, ⟨rest, Text.lt_of_lt_le h₁ hrest⟩)

/-- Reads formulas inside the comment that marks a directive. -/
def wrapped? (cs : List Char) : Option (List FormulaTree × Rest cs) := do
  let ⟨c₁, h₁⟩ ← Text.word? '<' ['!', '-', '-'] cs
  let ⟨c₂, h₂⟩ ← sign? 'T' ['B', 'L', 'F', 'M', ':'] c₁
  let (formulas, ⟨c₃, h₃⟩) ← formulas? c₂
  let ⟨c₄, h₄⟩ := gap c₃
  let ⟨rest, hrest⟩ ← Text.word? '-' ['-', '>'] c₄
  have h₁₂ := Text.lt_of_lt_lt h₁ h₂
  have h₁₃ := Text.lt_of_lt_lt h₁₂ h₃
  have h₁₄ := Text.lt_of_lt_le h₁₃ h₄
  return (formulas, ⟨rest, Text.lt_of_lt_lt h₁₄ hrest⟩)

/-- The formulas that a whole text consists of, in the comment that marks a directive or not. -/
def read? (cs : List Char) : Option (List FormulaTree) := do
  let ⟨start, _⟩ := gap cs
  let (formulas, ⟨rest, _⟩) ← wrapped? start <|> formulas? start
  if (gap rest).val.isEmpty then return formulas else none

end TableCalc.Directive
