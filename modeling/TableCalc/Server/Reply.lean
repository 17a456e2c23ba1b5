import TableCalc.Json.Basic

/-!
Replies to requests: a result, or a fault with a code.
-/

namespace TableCalc.Server

inductive Fault where
  /-- With what its reader says of the text, where that is told. -/
  | unreadable (detail : Option String)
  | unknownMethod (method : String)
  | missingParams
  | missingParameter (name : String)
  | missingToolName
  | missingArgument (name : String)
  /-- With what is said of the argument, where that is told. -/
  | invalidArgument (name : String) (detail : Option String)
  | unknownTool (name : String)
  | foreignUri (uri : String)
  | invalidDocumentName (name : String)
  /-- With the names of the documents that there are. -/
  | documentNotFound (name : String) (available : List String)
deriving DecidableEq, Repr

def documentScheme : String := "tblfm://documents/"

namespace Fault

def code : Fault → Int
  | .unreadable _ => -32700
  | .unknownMethod _ => -32601
  | _ => -32602

/-- A message with what is said of the cause, where that is told. -/
def withDetail (message : String) (detail : Option String) : String :=
  detail.elim message fun detail => message ++ ": " ++ detail

def message : Fault → String
  | .unreadable detail => withDetail "Parse error" detail
  | .unknownMethod method => "Method not found: " ++ method
  | .missingParams => "Missing params"
  | .missingParameter name => "Missing " ++ name ++ " parameter"
  | .missingToolName => "Missing tool name"
  | .missingArgument name => "Missing " ++ name ++ " argument"
  | .invalidArgument name detail => withDetail ("Invalid " ++ name) detail
  | .unknownTool name => "Unknown tool: " ++ name
  | .foreignUri uri =>
      "Invalid URI: " ++ uri ++ ". Expected " ++ documentScheme ++ "\x7bname\x7d"
  | .invalidDocumentName name => "Invalid document name '" ++ name ++ "'"
  | .documentNotFound name _ => "File '" ++ name ++ "' not found"

def data : Fault → Option Json
  | .documentNotFound _ available => some (.object [("available", .ofStrings available)])
  | _ => none

def toJson (fault : Fault) : Json :=
  .object ([("code", .int fault.code), ("message", .string fault.message)] ++
    (fault.data.map fun data => ("data", data)).toList)

end Fault

/-- What is said of texts that are no requests and of arguments that do not have their form. The words
are those of the reader of JSON texts. -/
structure Wording where
  request : (text : List Char) → Option String
  argument : (name : String) → Json → Option String

/-- The wording that tells no causes. -/
def Wording.brief : Wording := ⟨fun _ => none, fun _ _ => none⟩

/-- A reply. One to a text that is no request has no id. -/
structure Reply where
  id : Option Json
  outcome : Except Fault Json

def Reply.toJson (reply : Reply) : Json :=
  .object ([("jsonrpc", Json.string "2.0")] ++ (reply.id.map fun id => ("id", id)).toList ++
    [match reply.outcome with
      | .ok result => ("result", result)
      | .error fault => ("error", fault.toJson)])

end TableCalc.Server
