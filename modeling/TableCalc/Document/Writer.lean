import TableCalc.Document.Basic

/-!
Writing documents. Text lines and directives are written as they are; the columns of a table are
made as wide as their widest cell.
-/

namespace TableCalc

/-- The least width of a column. -/
def minWidth : Nat := 3

def blanks (n : Nat) : List Char := List.replicate n ' '

/-- A text with blanks up to a width, on the side or sides that the alignment asks for. -/
def Alignment.pad (alignment : Alignment) (width : Nat) (text : List Char) : List Char :=
  let fill := width - text.length
  match alignment with
  | .right => blanks fill ++ text
  | .center => blanks (fill / 2) ++ text ++ blanks (fill - fill / 2)
  | .unmarked | .left => text ++ blanks fill

/-- The mark of a column in the separator line. -/
def Alignment.mark (alignment : Alignment) (width : Nat) : List Char :=
  let dashes := List.replicate width '-'
  match alignment with
  | .unmarked => ' ' :: dashes ++ [' ']
  | .left => ':' :: dashes ++ [' ']
  | .right => ' ' :: dashes ++ [':']
  | .center => ':' :: dashes ++ [':']

/-- The characters of a cell; none if the row does not have it. -/
def cellChars (row : List String) (column : Nat) : List Char := (row[column]?.getD "").toList

namespace TableBlock

def width (block : TableBlock) (column : Nat) : Nat :=
  (block.table.rows.map fun row => (cellChars row column).length).foldl max minWidth

def widths (block : TableBlock) : List Nat := (List.range block.columnCount).map block.width

/-- The line of a row whose columns have the given widths. -/
def rowLine (block : TableBlock) (widths : List Nat) (row : List String) : List Char :=
  let cells := widths.zipIdx.map fun (width, column) =>
    (block.alignment column).pad width (cellChars row column)
  '|' :: ' ' :: List.intercalate [' ', '|', ' '] cells ++ [' ', '|']

def separatorLine (block : TableBlock) (widths : List Nat) : List Char :=
  let marks := widths.zipIdx.map fun (width, column) => (block.alignment column).mark width
  '|' :: List.intercalate ['|'] marks ++ ['|']

/-- The lines of a table: header, separator and body. -/
def lines (block : TableBlock) : List (List Char) :=
  let widths := block.widths
  let rows := block.table.rows.map (block.rowLine widths)
  rows.take 1 ++ block.separatorLine widths :: rows.drop 1

end TableBlock

def Block.lines : Block → List (List Char)
  | .text line => [line.toList]
  | .table block => block.lines ++ block.directives.map String.toList

def Document.render (document : Document) : String :=
  .ofList (List.intercalate ['\n'] (document.blocks.flatMap Block.lines) ++
    (if document.endsWithNewline then ['\n'] else []))

end TableCalc
