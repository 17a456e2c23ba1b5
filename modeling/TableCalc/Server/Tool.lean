import TableCalc.Engine
import TableCalc.Function.Help
import TableCalc.Server.Library

/-!
The tools of the server: evaluating documents and tables, and telling about functions. A formula
that fails is a result of its tool, not a fault of the request.
-/

namespace TableCalc.Server

def textContent (text : String) : String × Json :=
  ("content", .array [.object [("type", .string "text"), ("text", .string text)]])

/-- The result of a tool whose formulas failed. -/
def errorFields (error : FormulaError) : List (String × Json) :=
  [textContent ("Error [" ++ error.code ++ "]: " ++ error.message ++ "\nSuggestion: " ++
      error.suggestion),
    ("errors", .array [error.toJson]), ("isError", .bool true)]

def documentFields : Except FormulaError String → List (String × Json)
  | .ok markdown => [textContent markdown, ("isError", .bool false)]
  | .error error => errorFields error

/-- An argument that has to be a string. -/
def stringArgument (arguments : Json) (name : String) : Except Fault String :=
  match (arguments.field? name).bind Json.string? with
  | some value => .ok value
  | none => .error (.missingArgument name)

/-- An argument that has to be there and to have a given form. -/
def formedArgument {α : Type} (wording : Wording) (arguments : Json) (name : String)
    (read? : Json → Option α) : Except Fault α :=
  match arguments.field? name with
  | none => .error (.missingArgument name)
  | some json =>
      match read? json with
      | some value => .ok value
      | none => .error (.invalidArgument name (wording.argument name json))

def evaluateText (engine : Engine) (arguments : Json) : Except Fault Json := do
  let markdown ← stringArgument arguments "markdown"
  return .object (documentFields (engine.evaluateMarkdown markdown))

def evaluateFile (engine : Engine) (library : Library) (arguments : Json) :
    Except Fault Json := do
  let name ← stringArgument arguments "name"
  let markdown ← library.load name
  return .object (documentFields (engine.evaluateMarkdown markdown) ++
    [("source_file", .string (fileName name))])

def evaluateTable (wording : Wording) (engine : Engine) (arguments : Json) :
    Except Fault Json := do
  let rows ← formedArgument wording arguments "rows" Json.stringRows?
  let directives ← formedArgument wording arguments "directives" Json.strings?
  match engine.evaluate directives ⟨rows⟩ with
  | .ok table =>
      return .object
        [textContent ("Applied " ++ toString directives.length ++ " directive line(s)"),
          ("rows", .ofRows table.rows), ("isError", .bool false)]
  | .error error => return .object (errorFields error)

def tellHelp (engine : Engine) (arguments : Json) : Json :=
  let help := engine.functions.help ((arguments.field? "name").bind Json.string?)
  .object [textContent help.text, ("data", help.toJson)]

def listFunctions (engine : Engine) (arguments : Json) : Json :=
  let category := (arguments.field? "category").bind Json.string?
  let count := (engine.functions.list category).length
  .object [textContent (toString count ++ " functions listed"),
    ("data", engine.functions.listJson category)]

def callTool (wording : Wording) (engine : Engine) (library : Library) (params : Option Json) :
    Except Fault Json := do
  match params with
  | none => .error .missingParams
  | some params =>
      match (params.field? "name").bind Json.string? with
      | none => .error .missingToolName
      | some name =>
          let arguments := (params.field? "arguments").getD (.object [])
          match name with
          | "eval" => evaluateText engine arguments
          | "eval_file" => evaluateFile engine library arguments
          | "evaluate_table" => evaluateTable wording engine arguments
          | "help" => .ok (tellHelp engine arguments)
          | "list_functions" => .ok (listFunctions engine arguments)
          | _ => .error (.unknownTool name)

/-- The schema of a string with a description. -/
def stringSchema (description : String) : Json :=
  .object [("type", .string "string"), ("description", .string description)]

def arrayFields (items : Json) : List (String × Json) :=
  [("type", .string "array"), ("items", items)]

def anyString : Json := .object [("type", .string "string")]

/-- The description of a tool with its arguments, of which some have to be there. -/
def toolJson (name description : String) (arguments : List (String × Json))
    (required : List String) : Json :=
  .object [("name", .string name), ("description", .string description),
    ("inputSchema", .object ([("type", Json.string "object"), ("properties", .object arguments)] ++
      (if required.isEmpty then [] else [("required", .ofStrings required)])))]

def toolsJson : Json :=
  .object [("tools", .array [
    toolJson "eval"
      ("Evaluate every table in a markdown document that is followed by <!-- TBLFM: ... --> " ++
        "lines. Returns the re-rendered document.")
      [("markdown", stringSchema "Markdown document with formula tables")] ["markdown"],
    toolJson "eval_file" "Evaluate a .md file from the data directory by name."
      [("name", stringSchema "File name without .md extension")] ["name"],
    toolJson "evaluate_table"
      ("Apply formula directives to a table given as rows of cell text. " ++
        "Row 1 is the header.")
      [("rows", .object (arrayFields (.object (arrayFields anyString)) ++
          [("description", .string "Table rows, header first")])),
        ("directives", .object (arrayFields anyString ++
          [("description", .string "Directive lines, e.g. \"@>$>=sum(@I..@-1);hm\"")]))]
      ["rows", "directives"],
    toolJson "help" "Get documentation for a function, or general help."
      [("name", stringSchema "Function name. Omit for general help.")] [],
    toolJson "list_functions" "List all available functions, optionally by category."
      [("category", .object [("type", .string "string"),
        ("description", .string "Filter by category"), ("enum", .ofStrings ["aggregate"])])] []])]

end TableCalc.Server
