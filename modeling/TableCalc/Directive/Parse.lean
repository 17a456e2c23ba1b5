import TableCalc.Directive.Check
import TableCalc.Directive.Diagnosis
import TableCalc.Directive.Reader
import TableCalc.Function.Registry
import TableCalc.Text.Basic

/-!
Directives as lists of formulas. Errors name the whole directive, without the blanks around it.
-/

namespace TableCalc

/-- The most names that are suggested for an unknown one. -/
def maxSuggestions : Nat := 3

/-- The error that a fault of a directive is. -/
def Directive.Fault.toError (registry : Registry) (directive : String) : Fault → FormulaError
  | .unknownFunction name =>
      .unknownFunction name directive ((registry.similar name).take maxSuggestions)
  | fault => .unreadable directive fault.message

/-- The formulas of a directive. How the text is written comes first, what it means second. -/
def Formula.ofDirective (registry : Registry) (directive : String) :
    Except FormulaError (List Formula) :=
  let cs := Text.trim directive.toList
  let text := String.ofList cs
  match Directive.read? cs with
  | none => .error (.unreadable text (Directive.explain cs))
  | some trees =>
      (trees.mapM (Directive.FormulaTree.toFormula registry.isExactName)).mapError
        (Directive.Fault.toError registry text)

/-- The formulas of several directives in order. The first directive that fails decides. -/
def Formula.ofDirectives (registry : Registry) (directives : List String) :
    Except FormulaError (List Formula) :=
  return (← directives.mapM (ofDirective registry)).flatten

end TableCalc
