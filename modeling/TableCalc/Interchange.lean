import TableCalc.Document.Basic
import TableCalc.Error
import TableCalc.Function.Registry
import TableCalc.Json.Basic

/-!
The JSON forms of numbers, grids, tables, instants, formulas, documents, errors and documentation.
Records are objects; where they are read, an array of their fields in order will do as well, and
fields of other names are passed over.
-/

namespace TableCalc

namespace Json

/-- The only field of a record with one field. -/
def onlyField? (name : String) : Json → Option Json
  | .object fields => fields.lookup name
  | .array [value] => some value
  | _ => none

/-- A case of a type that carries a value. -/
def tagged (name : String) (value : Json) : Json := .object [(name, value)]

end Json

open Json (tagged)

def Decimal.toJson (x : Decimal) : Json := .string x.canonical

def Decimal.ofJson? (json : Json) : Option Decimal := do (read (← json.string?)).toOption

def Grid.toJson (g : Grid) : Json := tagged "cells" (.ofRows g.cells)

def Grid.ofJson? (json : Json) : Option Grid := do
  return ⟨← (← json.onlyField? "cells").stringRows?⟩

def Table.toJson (t : Table) : Json := tagged "rows" (.ofRows t.rows)

def Table.ofJson? (json : Json) : Option Table := do
  return ⟨← (← json.onlyField? "rows").stringRows?⟩

def Calendar.Timestamp.toJson (t : Timestamp) : Json := tagged "millis" (.int t.millis)

def Calendar.Timestamp.ofJson? (json : Json) : Option Timestamp := do
  let millis ← (← json.onlyField? "millis").int?
  if Text.isInt64 millis then return ⟨millis⟩ else none

def Shape.all : List Shape := [.cell, .row, .column, .block]

def Shape.toJson (s : Shape) : Json := .string s.name

/-- Reads a shape from its name, or from an object whose only field has that name and no value. -/
def Shape.ofJson? : Json → Option Shape
  | .string name => all.find? (·.name == name)
  | .object [(name, .null)] => all.find? (·.name == name)
  | _ => none

/-- The JSON form of an error, with its code, message and hint. -/
def FormulaError.toJson (error : FormulaError) : Json :=
  .object [("code", .string error.code), ("message", .string error.message),
    ("suggestion", .string error.suggestion)]

def Address.toJson : Address → Json
  | .index n => tagged "Index" (.ofNat n)
  | .offset k => tagged "Offset" (.int k)
  | .first => .string "First"
  | .last => .string "Last"
  | .anchor => .string "Anchor"

def CellRef.toJson (cell : CellRef) : Json :=
  .object [("row", .ofOption Address.toJson cell.row),
    ("column", .ofOption Address.toJson cell.column)]

def Reference.toJson : Reference → Json
  | .cell c => tagged "Cell" c.toJson
  | .range s f => tagged "Range" (.array [s.toJson, f.toJson])

def Operation.toJson : Operation → Json
  | .add => .string "Add"
  | .subtract => .string "Subtract"
  | .multiply => .string "Multiply"
  | .divide => .string "Divide"

def Comparator.toJson : Comparator → Json
  | .gt => .string "Gt"
  | .lt => .string "Lt"
  | .ge => .string "Ge"
  | .le => .string "Le"
  | .eq => .string "Eq"
  | .ne => .string "Ne"

def Expr.toJson : Expr → Json
  | .literal t => tagged "Literal" (.string t)
  | .reference r => tagged "Reference" r.toJson
  | .algebraic op left right =>
      tagged "Algebraic"
        (.object [("op", op.toJson), ("left", left.toJson), ("right", right.toJson)])
  | .aggregate name argument =>
      tagged "Aggregate" (.object [("name", .string name), ("arg", argument.toJson)])
  | .conditional left comparator right thenBranch elseBranch =>
      tagged "Conditional"
        (.object [("left", left.toJson), ("comparator", comparator.toJson),
          ("right", right.toJson), ("then_branch", thenBranch.toJson),
          ("else_branch", elseBranch.toJson)])

def Display.toJson : Display → Json
  | .fixed places => tagged "fixed" (.ofNat places)
  | .dateTime => .string "date_time"
  | .hoursMinutes => .string "hours_minutes"

def Formula.jsonFields (formula : Formula) : List (String × Json) :=
  [("source", .string formula.source), ("target", formula.target.toJson),
    ("expr", formula.expr.toJson), ("display", .ofOption Display.toJson formula.display)]

/-- The JSON form of a block of a document. -/
def Block.toJson : Block → Json
  | .text line => tagged "Text" (.string line)
  | .table block =>
      tagged "Table"
        (.object [("table", block.table.toJson),
          ("alignments", .array (block.alignments.map fun a => .string a.name)),
          ("directives", .ofStrings block.directives)])

def Document.toJson (document : Document) : Json :=
  .object [("blocks", .array (document.blocks.map Block.toJson)),
    ("trailing_newline", .bool document.endsWithNewline)]

/-- The JSON form of the documentation of an argument. -/
def Parameter.toJson (p : Parameter) : Json :=
  .object ([("name", .string p.name), ("typ", .string p.type),
    ("description", .string p.description), ("optional", .bool p.optional)] ++
    (p.default.map fun value => ("default", Json.string value)).toList)

def FunctionInfo.toJsonShort (info : FunctionInfo) : Json :=
  .object [("name", .string info.name), ("description", .string info.description),
    ("usage", .string info.usage), ("category", .string info.category)]

def FunctionInfo.toJson (info : FunctionInfo) : Json :=
  .object [("name", .string info.name), ("type", .string "function"),
    ("description", .string info.description), ("usage", .string info.usage),
    ("returns", .string info.returns), ("category", .string info.category),
    ("args", .array (info.parameters.map Parameter.toJson)),
    ("examples", .ofStrings info.examples), ("related", .ofStrings info.related)]

end TableCalc
