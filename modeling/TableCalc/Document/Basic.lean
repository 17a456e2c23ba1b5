import TableCalc.Table

/-!
Markdown documents as far as tables go: lines of text, and tables with the directives below them.
-/

namespace TableCalc

/-- How the cells of a column are placed. -/
inductive Alignment where
  | unmarked | left | right | center
deriving DecidableEq, Repr

def Alignment.name : Alignment → String
  | .unmarked => "default"
  | .left => "left"
  | .right => "right"
  | .center => "center"

/-- A table of a document, with the alignments of its separator line and its directive lines. -/
structure TableBlock where
  table : Table
  alignments : List Alignment
  directives : List String
deriving DecidableEq, Repr

/-- The number of columns, those that only the separator line has included. -/
def TableBlock.columnCount (block : TableBlock) : Nat :=
  max block.table.extent.columns block.alignments.length

def TableBlock.alignment (block : TableBlock) (column : Nat) : Alignment :=
  block.alignments[column]?.getD .unmarked

inductive Block where
  | text (line : String)
  | table (table : TableBlock)
deriving DecidableEq, Repr

/-- The table of a block, if it is one. -/
def Block.table? : Block → Option TableBlock
  | .text _ => none
  | .table t => some t

structure Document where
  blocks : List Block
  endsWithNewline : Bool
deriving DecidableEq, Repr

/-- The tables of a document, in order. -/
def Document.tables (document : Document) : List TableBlock :=
  document.blocks.filterMap Block.table?

end TableCalc
