import TableCalc.Server.Request
import TableCalc.Server.Tool

/-!
Serving requests line by line. Each reply depends on its own line and on the documents at that
moment, and on nothing that came before. A session ends early where a line cannot be read or a reply
cannot be written.
-/

namespace TableCalc.Server

/-- The version of the protocol where a client names none. -/
def protocolVersion : String := "2025-11-25"

/-- What the server tells a client about itself. -/
def greeting (params : Option Json) : Json :=
  let version :=
    (params.bind fun p => (p.field? "protocolVersion").bind Json.string?).getD protocolVersion
  .object [("protocolVersion", .string version),
    ("serverInfo", .object [("name", .string "tblfm"), ("version", .string "0.1.0"),
      ("description", .string "Table formulas for markdown tables")]),
    ("capabilities", .object [("tools", .object [("listChanged", .bool false)]),
      ("resources", .object [("subscribe", .bool false), ("listChanged", .bool false)])]),
    ("instructions", .string
      ("tblfm evaluates <!-- TBLFM: ... --> formula comments under markdown tables. " ++
        "Use 'eval' on a document, 'evaluate_table' on raw rows, and 'help' to explore the " ++
        "functions. Show the returned markdown to the user as received."))]

def readResource (library : Library) (params : Option Json) : Except Fault Json :=
  match params.bind fun p => (p.field? "uri").bind Json.string? with
  | none => .error (.missingParameter "uri")
  | some uri => do
      let content ← library.read uri
      return .object [("contents", .array [.object [("uri", .string uri),
        ("mimeType", .string "text/markdown"), ("text", .string content)]])]

def outcome (wording : Wording) (engine : Engine) (library : Library) (request : Request) :
    Except Fault Json :=
  match request.method with
  | "initialize" => .ok (greeting request.params)
  | "initialized" | "notifications/initialized" | "ping" => .ok (.object [])
  | "tools/list" => .ok toolsJson
  | "tools/call" => callTool wording engine library request.params
  | "resources/list" => .ok library.listJson
  | "resources/read" => readResource library request.params
  | method => .error (.unknownMethod method)

/-- The reply to a line. Blank lines and requests without an id have none. -/
def reply? (wording : Wording) (engine : Engine) (library : Library) (line : String) :
    Option Reply :=
  let text := Text.trim line.toList
  if text.isEmpty then none
  else
    match Request.read? text with
    | none => some ⟨none, .error (.unreadable (wording.request text))⟩
    | some request =>
        request.id.map fun id => ⟨some id, outcome wording engine library request⟩

/-- What a line leads to. -/
inductive Turn where
  /-- The line is no text, and the server stops. -/
  | stop
  | silent
  | answer (reply : Reply)

def turn (wording : Wording) (engine : Engine) (library : Library) (line : ByteArray) : Turn :=
  match String.fromUTF8? line with
  | none => .stop
  | some text => (reply? wording engine library text).elim .silent .answer

/-- The replies to the lines of a session, of which `room` can be written. The server stops at a line
that is no text and at a reply that cannot be written. -/
def session (wording : Wording) (engine : Engine) (library : Library) (room : Nat) :
    (lines : List ByteArray) → List Reply
  | [] => []
  | line :: lines =>
      match turn wording engine library line with
      | .stop => []
      | .silent => session wording engine library room lines
      | .answer reply =>
          match room with
          | 0 => []
          | room + 1 => reply :: session wording engine library room lines

/-- The replies to lines that are texts, if all of them can be written. -/
def replies (engine : Engine) (library : Library) (lines : List String) : List Reply :=
  session .brief engine library lines.length (lines.map String.toUTF8)

/-- The number of digits that a setting asks for: digits after an optional plus, up to a word of 64
bits. Anything else asks for nothing. -/
def digitsSetting? (setting : String) : Option Nat :=
  let digits :=
    match setting.toList with
    | '+' :: rest => rest
    | cs => cs
  (Text.natural? digits).filter (· ≤ Text.maxWord)

/-- The engine of a server with the given setting. -/
def engineFor (setting : Option String) : Engine :=
  match setting.bind digitsSetting? with
  | some digits => Engine.standard.withQuotientDigits digits
  | none => .standard

end TableCalc.Server
