import TableCalc.Error
import TableCalc.Grid

/-!
Functions of one argument that formulas can call, with their documentation. A function may consult and
call the other ones.
-/

namespace TableCalc

structure Parameter where
  name : String
  type : String
  description : String
  optional : Bool
  default : Option String
deriving DecidableEq, Repr

structure FunctionInfo where
  name : String
  description : String
  usage : String
  parameters : List Parameter
  returns : String
  examples : List String
  category : String
  related : List String
deriving DecidableEq, Repr

/-- What can be told about a name, or about all functions if no name is given. -/
inductive Help where
  | function (info : FunctionInfo)
  /-- There is no such function; these are similar. -/
  | unknown (name : String) (similar : List String)
  /-- The names of each category. -/
  | overview (categories : List (String × List String))
deriving DecidableEq, Repr

/-- What a function sees of the functions that can be called: what is told about them, and their
calls, each with a number of digits for quotients. -/
structure Catalog where
  info? : (name : String) → Option FunctionInfo
  similar : (name : String) → List String
  help : (name : Option String) → Help
  list : (category : Option String) → List FunctionInfo
  call : (quotientDigits : Nat) → (name : String) → Grid → Except FormulaError Grid

/-- What a function is called with besides its argument. The number of significant digits of quotients
is set where the function is called. -/
structure Context where
  quotientDigits : Nat
  functions : Catalog

/-- A function over a selection of cells. -/
structure Function where
  info : FunctionInfo
  call : Context → Grid → Except FormulaError Grid

def Parameter.required (name type description : String) : Parameter :=
  { name := name, type := type, description := description, optional := false, default := none }

end TableCalc
