/-!
Blanks and lines. Blank characters are the characters with the Unicode property White_Space. Texts are
trimmed of them before they are read, so a no-break space counts and a zero-width space does not. A
line feed ends a line, and a carriage return right before it belongs to the line's end. Joining the
lines with line feeds gives the text back up to those returns and up to a final line feed.
-/

namespace TableCalc.Text

/-- The property White_Space of Unicode. -/
def isBlank (c : Char) : Bool :=
  let n := c.toNat
  (0x09 ≤ n && n ≤ 0x0D) || n == 0x20 || n == 0x85 || n == 0xA0 || n == 0x1680 ||
    (0x2000 ≤ n && n ≤ 0x200A) || n == 0x2028 || n == 0x2029 || n == 0x202F || n == 0x205F ||
    n == 0x3000

/-- The text without the blanks at its start. -/
def trimStart (cs : List Char) : List Char := cs.dropWhile isBlank

/-- The text without the blanks at its end. -/
def trimEnd (cs : List Char) : List Char := (cs.reverse.dropWhile isBlank).reverse

/-- The text without the blanks at either end. -/
def trim (cs : List Char) : List Char := trimEnd (trimStart cs)

/-- `trim` on strings. -/
def trimmed (s : String) : String := .ofList (trim s.toList)

/-- Whether nothing is left of a text once it is trimmed. -/
def isBlankText (s : String) : Bool := s.toList.all isBlank

/-- The lines of a text. What stands after the last line feed is a line unless it is empty. -/
def lines : List Char → List (List Char)
  | [] => []
  | '\n' :: rest => [] :: lines rest
  | '\r' :: '\n' :: rest => [] :: lines rest
  | c :: rest =>
      match lines rest with
      | [] => [[c]]
      | line :: more => (c :: line) :: more

/-- Whether a text ends with a line feed. -/
def endsWithNewline (cs : List Char) : Bool := cs.getLast? == some '\n'

/-- The text before the first character that satisfies `p` and the text after it, or nothing if
there is no such character. -/
def splitFirst? (p : Char → Bool) : List Char → Option (List Char × List Char)
  | [] => none
  | c :: rest =>
      if p c then some ([], rest)
      else (splitFirst? p rest).map fun (before, after) => (c :: before, after)

/-- What follows `start` in a text that starts with it. -/
def dropStart? (start cs : List Char) : Option (List Char) :=
  if start.isPrefixOf cs then some (cs.drop start.length) else none

/-- What stands before `finish` in a text that ends with it. -/
def dropEnd? (finish cs : List Char) : Option (List Char) :=
  if finish.isSuffixOf cs then some (cs.take (cs.length - finish.length)) else none

end TableCalc.Text
