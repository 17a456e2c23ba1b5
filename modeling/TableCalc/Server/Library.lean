import TableCalc.Server.Reply
import TableCalc.Text.Basic

/-!
The markdown documents that a server offers: the files of a directory whose names end in `.md`.
-/

namespace TableCalc.Server

structure Library where
  files : List (String × String)

def fileName (name : String) : String := name ++ ".md"

/-- The name of the document that a file is. A file needs a name before its ending. -/
def documentName? (file : String) : Option String := do
  let stem ← Text.dropEnd? ".md".toList file.toList
  if stem.isEmpty then none else return .ofList stem

/-- The description of a document from its first line: a comment that is no directive, or a
heading. -/
def description? (content : String) : Option String := do
  let first := Text.trim (← (Text.lines content.toList).head?)
  let comment? := (Text.dropStart? "<!-- ".toList first).bind (Text.dropEnd? " -->".toList)
  match comment? with
  | some comment =>
      if "TBLFM:".toList.isPrefixOf comment then none else return .ofList comment
  | none => return .ofList (← Text.dropStart? "# ".toList first)

namespace Library

/-- The documents with their contents, ordered by name. -/
def documents (library : Library) : List (String × String) :=
  (library.files.filterMap fun (file, content) =>
    (documentName? file).map fun name => (name, content)).mergeSort fun a b => decide (a.1 ≤ b.1)

/-- The names of the documents, in order. -/
def names (library : Library) : List String := library.documents.map Prod.fst

/-- Whether a name could lead out of the directory or to a hidden file. -/
def isForbidden (name : String) : Bool :=
  name.toList.any (fun c => c == '/' || c == '\\') || name.toList.head? == some '.'

def load (library : Library) (name : String) : Except Fault String :=
  if isForbidden name then .error (.invalidDocumentName name)
  else
    match library.files.lookup (fileName name) with
    | some content => .ok content
    | none => .error (.documentNotFound name library.names)

def read (library : Library) (uri : String) : Except Fault String :=
  match Text.dropStart? documentScheme.toList uri.toList with
  | some name => library.load (.ofList name)
  | none => .error (.foreignUri uri)

/-- The JSON form of an entry in the list of documents. -/
def entryJson (name content : String) : Json :=
  let description := (description? content).getD ("Markdown document: " ++ fileName name)
  .object [("uri", .string (documentScheme ++ name)), ("name", .string name),
    ("description", .string description), ("mimeType", .string "text/markdown")]

def listJson (library : Library) : Json :=
  .object [("resources", .array (library.documents.map fun (name, content) =>
    entryJson name content))]

end Library

end TableCalc.Server
