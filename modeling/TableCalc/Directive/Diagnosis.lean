/-!
Explaining why a text is not a directive. The grammar stands here as data. A text is matched against
it while the parts that were tried at the farthest point are kept; they are what was expected there.
-/

namespace TableCalc.Directive

/-- The parts of the grammar that explanations name, in the order in which they are listed. -/
inductive Part where
  | endOfInput | directive | formula | target | range | reference | rowAddress | columnAddress
  | offset | index | first | last | anchor | group | add | subtract | multiply | divide | call
  | identifier | conditional | comparison | comparator | number | text | textInner | display | fixed
  | decimals | dateTime | hoursMinutes
deriving DecidableEq, Repr

def Part.name : Part → String
  | .endOfInput => "EOI"
  | .directive => "directive"
  | .formula => "formula"
  | .target => "target"
  | .range => "range"
  | .reference => "reference"
  | .rowAddress => "row_address"
  | .columnAddress => "column_address"
  | .offset => "offset"
  | .index => "index"
  | .first => "first"
  | .last => "last"
  | .anchor => "anchor"
  | .group => "group"
  | .add => "add"
  | .subtract => "subtract"
  | .multiply => "multiply"
  | .divide => "divide"
  | .call => "call"
  | .identifier => "identifier"
  | .conditional => "conditional"
  | .comparison => "comparison"
  | .comparator => "comparator"
  | .number => "number"
  | .text => "text"
  | .textInner => "text_inner"
  | .display => "display"
  | .fixed => "fixed"
  | .decimals => "decimals"
  | .dateTime => "datetime"
  | .hoursMinutes => "hours_minutes"

/-- All parts, in the order in which explanations list them. -/
def Part.listed : List Part :=
  [.endOfInput, .directive, .formula, .target, .range, .reference, .rowAddress, .columnAddress,
    .offset, .index, .first, .last, .anchor, .group, .add, .subtract, .multiply, .divide, .call,
    .identifier, .conditional, .comparison, .comparator, .number, .text, .textInner, .display,
    .fixed, .decimals, .dateTime, .hoursMinutes]

/-- Patterns of text. Choices are ordered and repetitions take as much as they can. -/
inductive Pattern where
  | empty
  | char (accepts : Char → Bool)
  | word (chars : List Char)
  | atEnd
  | seq (first second : Pattern)
  | choice (first second : Pattern)
  | many (item : Pattern)
  /-- Matches nothing, where the given pattern does not match. -/
  | unless (pattern : Pattern)
  | part (part : Part)
  /-- An operand, which is no part of its own. -/
  | operand

namespace Pattern

def sequence (patterns : List Pattern) : Pattern := patterns.foldr seq empty

/-- The first of two or more patterns that matches. -/
def any (first : Pattern) (more : List Pattern) : Pattern :=
  match more with
  | [] => first
  | second :: rest => choice first (any second rest)

def optional (pattern : Pattern) : Pattern := choice pattern empty

/-- The pattern at least once. -/
def several (pattern : Pattern) : Pattern := seq pattern (many pattern)

def string (s : String) : Pattern := word s.toList

def gap : Pattern := many (char fun c => c == ' ' || c == '\t')

def digit : Pattern := char Char.isDigit

def formulas : Pattern :=
  seq (part .formula) (many (sequence [gap, string "::", gap, part .formula]))

/-- Formulas in the comment that marks a directive. -/
def wrapped : Pattern :=
  sequence [string "<!--", gap, string "TBLFM:", gap, formulas, gap, string "-->"]

def address : Pattern :=
  any (part .offset) [part .first, part .last, part .anchor, part .index]

def operandChoice : Pattern :=
  any (part .conditional)
    [part .call, part .range, part .group, part .reference, part .number, part .text]

def operation : Pattern :=
  any (part .add) [part .subtract, part .multiply, part .divide]

end Pattern

open Pattern in
def Part.pattern : Part → Pattern
  | .endOfInput => atEnd
  | .directive => sequence [gap, choice wrapped formulas, gap, part .endOfInput]
  | .formula =>
      sequence [part .target, gap, string "=", gap, Pattern.operand,
        optional (sequence [gap, string ";", gap, part .display])]
  | .target => choice (part .range) (part .reference)
  | .range => sequence [part .reference, string "..", part .reference]
  | .reference =>
      choice (seq (part .rowAddress) (optional (part .columnAddress))) (part .columnAddress)
  | .rowAddress => seq (string "@") address
  | .columnAddress => seq (string "$") address
  | .offset => seq (choice (string "+") (string "-")) (several digit)
  | .index => several digit
  | .first => string "<"
  | .last => string ">"
  | .anchor => string "I"
  | .group =>
      sequence [string "(", gap, Pattern.operand,
        many (sequence [gap, operation, gap, Pattern.operand]), gap, string ")"]
  | .add => string "+"
  | .subtract => string "-"
  | .multiply => string "*"
  | .divide => string "/"
  | .call =>
      sequence [.unless (sequence [string "if", gap, string "("]), part .identifier, string "(",
        gap, Pattern.operand, gap, string ")"]
  | .identifier =>
      seq (char Char.isAlpha) (many (char fun c => c.isAlphanum || c == '_'))
  | .conditional =>
      sequence [string "if", gap, string "(", gap, part .comparison, gap, string ",", gap,
        Pattern.operand, gap, string ",", gap, Pattern.operand, gap, string ")"]
  | .comparison => sequence [Pattern.operand, gap, part .comparator, gap, Pattern.operand]
  | .comparator =>
      any (string ">=") [string "<=", string "==", string "!=", string ">", string "<"]
  | .number =>
      sequence [optional (string "-"), several digit,
        optional (seq (string ".") (several digit))]
  | .text => sequence [string "\"", part .textInner, string "\""]
  | .textInner => many (char (· != '"'))
  | .display => any (part .fixed) [part .dateTime, part .hoursMinutes]
  | .fixed => sequence [string "%.", part .decimals, string "f"]
  | .decimals => several digit
  | .dateTime => string "dt"
  | .hoursMinutes => string "hm"

/-- A point of a text: what lies ahead, and how many characters lie behind. -/
structure Point where
  ahead : List Char
  behind : Nat

/-- The farthest point at which a part was tried in vain, and the parts that were. -/
structure Farthest where
  behind : Nat
  expected : List Part

namespace Farthest

/-- How many parts were tried in vain at a point. -/
def countAt (seen : Farthest) (behind : Nat) : Nat :=
  if behind = seen.behind then seen.expected.length else 0

/-- Notes that a part was tried in vain at a point, where `before` is what had been seen when it
was tried. The part stands for what was tried inside it at the same point, unless that was a single
part, which then says more. -/
def note (seen before : Farthest) (part : Part) (behind : Nat) : Farthest :=
  if seen.countAt behind = before.countAt behind + 1 then seen
  else if behind = seen.behind then
    { seen with expected := seen.expected.take (before.countAt behind) ++ [part] }
  else if seen.behind < behind then ⟨behind, [part]⟩
  else seen

end Farthest

/-- Matches a pattern at a point. The result is the point after the match, if there is one, and what
was seen on the way. The fuel bounds how deep parts nest and how often patterns repeat. -/
def Pattern.run (fuel : Nat) (pattern : Pattern) (point : Point) (seen : Farthest) :
    Option Point × Farthest :=
  match pattern with
  | .empty => (some point, seen)
  | .char accepts =>
      match point.ahead with
      | [] => (none, seen)
      | c :: rest => if accepts c then (some ⟨rest, point.behind + 1⟩, seen) else (none, seen)
  | .word chars =>
      if chars.isPrefixOf point.ahead then
        (some ⟨point.ahead.drop chars.length, point.behind + chars.length⟩, seen)
      else (none, seen)
  | .atEnd => (if point.ahead.isEmpty then some point else none, seen)
  | .seq first second =>
      match first.run fuel point seen with
      | (none, seen) => (none, seen)
      | (some next, seen) => second.run fuel next seen
  | .choice first second =>
      match first.run fuel point seen with
      | (none, seen) => second.run fuel point seen
      | matched => matched
  | .many item =>
      match fuel with
      | 0 => (none, seen)
      | fuel + 1 =>
          match item.run fuel point seen with
          | (none, seen) => (some point, seen)
          | (some next, seen) => (Pattern.many item).run fuel next seen
  | .unless pattern =>
      match pattern.run fuel point seen with
      | (none, _) => (some point, seen)
      | (some _, _) => (none, seen)
  | .part p =>
      match fuel with
      | 0 => (none, seen)
      | fuel + 1 =>
          match p.pattern.run fuel point seen with
          | (none, after) => (none, after.note seen p point.behind)
          | matched => matched
  | .operand =>
      match fuel with
      | 0 => (none, seen)
      | fuel + 1 => Pattern.operandChoice.run fuel point seen
termination_by (fuel, sizeOf pattern)

/-- Enough fuel for a text: a character opens less than sixteen parts and repetitions. -/
def fuelFor (cs : List Char) : Nat := 16 * (cs.length + 4)

/-- The farthest point at which a text departs from the grammar, and what was expected there. -/
def farthest (cs : List Char) : Farthest :=
  ((Pattern.part .directive).run (fuelFor cs) ⟨cs, 0⟩ ⟨0, []⟩).2

def alternatives : List String → String
  | [] => ""
  | [a] => a
  | [a, b] => a ++ " or " ++ b
  | names => ", ".intercalate names.dropLast ++ ", or " ++ names.getLast?.getD ""

/-- The number of a point in its line, counted from one. -/
def columnOf (cs : List Char) (behind : Nat) : Nat :=
  ((cs.take behind).reverse.takeWhile (· != '\n')).length + 1

def explain (cs : List Char) : String :=
  let seen := farthest cs
  let expected := Part.listed.filter (seen.expected.contains ·)
  "column " ++ toString (columnOf cs seen.behind) ++ ": expected " ++
    alternatives (expected.map Part.name)

end TableCalc.Directive
