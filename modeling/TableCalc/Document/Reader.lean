import TableCalc.Document.Basic
import TableCalc.Text.Basic

/-!
Reading documents. A table is a header line, a separator line and any number of body lines. The
directive lines right below it belong to it. All other lines are text.
-/

namespace TableCalc

namespace Document

/-- Whether a line could belong to a table: it starts with a pipe. -/
def isTableLine (line : List Char) : Bool := (Text.trimStart line).head? == some '|'

def isSeparatorChar (c : Char) : Bool :=
  c == '|' || c == '-' || c == ':' || c == ' ' || c == '\t'

/-- Whether a line separates a header from a body. -/
def isSeparator (line : List Char) : Bool :=
  let line := Text.trim line
  line.head? == some '|' && line.contains '-' && line.all isSeparatorChar

def directiveMark : List Char := "<!-- TBLFM:".toList

def isDirective (line : List Char) : Bool := directiveMark.isPrefixOf (Text.trimStart line)

/-- Puts characters in front of the first piece. -/
def extendFirst (cs : List Char) : List (List Char) → List (List Char)
  | [] => [cs]
  | piece :: pieces => (cs ++ piece) :: pieces

/-- The pieces of a line between its pipes. A pipe after a backslash does not divide, and both stay
where they are. -/
def pieces : List Char → List (List Char)
  | [] => [[]]
  | '\\' :: '|' :: rest => extendFirst ['\\', '|'] (pieces rest)
  | '|' :: rest => [] :: pieces rest
  | c :: rest => extendFirst [c] (pieces rest)

/-- Drops the last piece if it is blank: the row is then closed by a pipe. -/
def dropBlankEnd (pieces : List (List Char)) : List (List Char) :=
  match pieces.getLast? with
  | some last => if last.all Text.isBlank then pieces.dropLast else pieces
  | none => []

/-- The line without the pipe at its start. -/
def withoutFirstPipe : List Char → List Char
  | '|' :: rest => rest
  | cs => cs

def splitRow (line : List Char) : List String :=
  (dropBlankEnd (pieces (withoutFirstPipe (Text.trim line)))).map fun piece =>
    .ofList (Text.trim piece)

end Document

/-- The alignment that a cell of a separator line marks. -/
def Alignment.ofMark (mark : String) : Alignment :=
  let cs := mark.toList
  match cs.head? == some ':', cs.getLast? == some ':' && decide (1 < cs.length) with
  | true, true => .center
  | true, false => .left
  | false, true => .right
  | false, false => .unmarked

namespace Document

/-- The table of a header line, a separator line, body lines and directive lines. -/
def readTable (header separator : List Char) (body directives : List (List Char)) : TableBlock where
  table := ⟨(header :: body).map splitRow⟩
  alignments := (splitRow separator).map Alignment.ofMark
  directives := directives.map .ofList

def readBlocks : List (List Char) → List Block
  | [] => []
  | [line] => [.text (.ofList line)]
  | line :: next :: rest =>
      if isTableLine line && isSeparator next then
        let body := rest.takeWhile isTableLine
        let afterBody := rest.dropWhile isTableLine
        .table (readTable line next body (afterBody.takeWhile isDirective)) ::
          readBlocks (afterBody.dropWhile isDirective)
      else .text (.ofList line) :: readBlocks (next :: rest)
termination_by lines => lines.length
decreasing_by
  · have hbody := (List.dropWhile_sublist isTableLine (l := rest)).length_le
    have hdirectives :=
      (List.dropWhile_sublist isDirective (l := rest.dropWhile isTableLine)).length_le
    simp only [List.length_cons]
    omega
  · simp

def read (markdown : String) : Document where
  blocks := readBlocks (Text.lines markdown.toList)
  endsWithNewline := Text.endsWithNewline markdown.toList

end Document

end TableCalc
