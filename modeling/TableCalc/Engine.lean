import TableCalc.Directive.Parse
import TableCalc.Display
import TableCalc.Document.Reader
import TableCalc.Document.Writer
import TableCalc.Evaluation

/-!
Applying formulas to tables and documents. Formulas are applied in order and each one sees what the
ones before it have written, cell by cell. Nothing is kept of a list of directives that fails, and the
first table that fails decides for the whole document.
-/

namespace TableCalc

/-- The text that a value is written as. A single cell that is blank is written as zero. -/
def writtenText (display : Option Display) (value : Grid) : String :=
  let shown := display.elim value (·.apply value)
  if shown.isCell && Text.isBlankText (shown.text 0 0) then "0" else shown.render

namespace Engine

/-- The table with the result of a formula in one cell. -/
def writeCell (engine : Engine) (formula : Formula) (table : Table) (position : Position) :
    Except FormulaError Table := do
  let value ← engine.eval table position formula.expr
  return table.set position (writtenText formula.display value)

def applyFormula (engine : Engine) (table : Table) (formula : Formula) :
    Except FormulaError Table := do
  (← formula.target.targetCells table.extent).foldlM (engine.writeCell formula) table

def apply (engine : Engine) (formulas : List Formula) (table : Table) :
    Except FormulaError Table :=
  formulas.foldlM engine.applyFormula table

/-- The table after a list of directives. All of them are read before the first one is applied. -/
def evaluate (engine : Engine) (directives : List String) (table : Table) :
    Except FormulaError Table := do
  engine.apply (← Formula.ofDirectives engine.functions directives) table

def evaluateBlock (engine : Engine) : Block → Except FormulaError Block
  | .text line => .ok (.text line)
  | .table block =>
      if block.directives.isEmpty then .ok (.table block)
      else return .table { block with table := ← engine.evaluate block.directives block.table }

/-- The document with the directives of all tables applied. -/
def evaluateDocument (engine : Engine) (document : Document) : Except FormulaError Document :=
  return { document with blocks := ← document.blocks.mapM engine.evaluateBlock }

/-- The markdown text with the directives of all tables applied. -/
def evaluateMarkdown (engine : Engine) (markdown : String) : Except FormulaError String :=
  return (← engine.evaluateDocument (.read markdown)).render

end Engine

end TableCalc
