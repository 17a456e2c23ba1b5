import TableCalc.Interchange

/-!
Documentation of the functions of a registry: of one function, or of all of them by category.
-/

namespace TableCalc

/-- The documentation of the functions of a category, or of all. -/
def Registry.listJson (registry : Registry) (category : Option String) : Json :=
  .array ((registry.list category).map FunctionInfo.toJsonShort)

namespace Help

/-- The message where a function is not known. -/
def unknownMessage (name : String) : String := "No function named '" ++ name ++ "'"

def toJson : Help → Json
  | .function info => info.toJson
  | .unknown name similar =>
      .object [("error", .string (unknownMessage name)), ("similar", .ofStrings similar)]
  | .overview categories =>
      .object
        [("functions", .object (categories.map fun (category, names) =>
            (category, .ofStrings names))),
          ("usage", .string "Call help('function_name') for detailed help.")]

def text : Help → String
  | .unknown name _ => "Error: " ++ unknownMessage name
  | .function info =>
      "# " ++ info.name ++ "\n\n" ++ info.description ++ "\n\n**Usage:** `" ++ info.usage ++ "`\n\n"
  | .overview categories =>
      "**Usage:** `Call help('function_name') for detailed help.`\n\n" ++
        String.join (categories.map fun (category, names) =>
          "**" ++ category ++ ":** " ++ ", ".intercalate names ++ "\n")

end Help

end TableCalc
