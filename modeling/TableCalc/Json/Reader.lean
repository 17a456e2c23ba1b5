import TableCalc.Json.Number

/-!
Reading JSON text. A value can be read to be kept or to be skipped. What is kept may nest only to a
given depth, its numbers must not be too large and its strings must be Unicode text; of what is
skipped only the form is checked.
-/

namespace TableCalc.Json

open Text (Rest Remaining)

def isSpace (c : Char) : Bool := c == ' ' || c == '\n' || c == '\r' || c == '\t'

def skipSpace (cs : List Char) : Remaining cs := (Text.many isSpace cs).2

/-- Reads the next character that is not white space. -/
def token? (cs : List Char) : Option (Char × Rest cs) := do
  let ⟨start, hstart⟩ := skipSpace cs
  let (c, ⟨rest, hrest⟩) ← Text.one? (fun _ => true) start
  return (c, ⟨rest, Text.lt_of_le_lt hstart hrest⟩)

def hexDigit? (c : Char) : Option Nat :=
  if c.isDigit then some (c.toNat - '0'.toNat)
  else if 'a' ≤ c && c ≤ 'f' then some (c.toNat - 'a'.toNat + 10)
  else if 'A' ≤ c && c ≤ 'F' then some (c.toNat - 'A'.toNat + 10)
  else none

def hexWord? : (cs : List Char) → Option (Nat × Rest cs)
  | a :: b :: c :: d :: rest => do
      let word := (← hexDigit? a) * 4096 + (← hexDigit? b) * 256 + (← hexDigit? c) * 16 +
        (← hexDigit? d)
      return (word, ⟨rest, by simp; omega⟩)
  | _ => none

def isHighSurrogate (n : Nat) : Bool := 0xD800 ≤ n && n ≤ 0xDBFF

def isLowSurrogate (n : Nat) : Bool := 0xDC00 ≤ n && n ≤ 0xDFFF

/-- Reads what follows the first half of a surrogate pair: the second half, escaped too. -/
def lowSurrogate? (cs : List Char) : Option (Nat × Rest cs) := do
  let ⟨afterMark, hmark⟩ ← Text.word? '\\' ['u'] cs
  let (low, ⟨rest, hrest⟩) ← hexWord? afterMark
  if isLowSurrogate low then return (low, ⟨rest, Text.lt_of_lt_lt hmark hrest⟩) else none

/-- Reads the code of a character after a backslash and `u`. Where the text is kept, a half of a
surrogate pair on its own is refused. -/
def codePoint? (kept : Bool) (cs : List Char) : Option (Char × Rest cs) := do
  let (word, ⟨afterWord, hword⟩) ← hexWord? cs
  if !kept then return (Char.ofNat word, ⟨afterWord, hword⟩)
  else if isHighSurrogate word then
    let (low, ⟨rest, hrest⟩) ← lowSurrogate? afterWord
    return (Char.ofNat (0x10000 + (word - 0xD800) * 0x400 + (low - 0xDC00)),
      ⟨rest, Text.lt_of_lt_lt hword hrest⟩)
  else if isLowSurrogate word then none
  else return (Char.ofNat word, ⟨afterWord, hword⟩)

def escape? (kept : Bool) (cs : List Char) : Option (Char × Rest cs) := do
  let (mark, ⟨rest, hrest⟩) ← Text.one? (fun _ => true) cs
  if mark == 'u' then
    let (c, ⟨afterCode, hcode⟩) ← codePoint? kept rest
    return (c, ⟨afterCode, Text.lt_of_lt_lt hrest hcode⟩)
  else
    let c ← [('"', '"'), ('\\', '\\'), ('/', '/'), ('b', '\x08'), ('f', '\x0c'), ('n', '\n'),
      ('r', '\r'), ('t', '\t')].lookup mark
    return (c, ⟨rest, hrest⟩)

/-- Reads the characters of a string up to its closing quote. Control characters have to be
escaped. -/
def stringBody? (kept : Bool) (cs : List Char) : Option (List Char × Rest cs) := do
  let (c, ⟨rest, hrest⟩) ← Text.one? (fun _ => true) cs
  if c == '"' then return ([], ⟨rest, hrest⟩)
  else if c == '\\' then
    let (e, ⟨afterEscape, hescape⟩) ← escape? kept rest
    have h := Text.lt_of_lt_lt hrest hescape
    let (more, ⟨final, hfinal⟩) ← stringBody? kept afterEscape
    return (e :: more, ⟨final, Text.lt_of_lt_lt h hfinal⟩)
  else if c.toNat < 0x20 then none
  else
    let (more, ⟨final, hfinal⟩) ← stringBody? kept rest
    return (c :: more, ⟨final, Text.lt_of_lt_lt hrest hfinal⟩)
termination_by cs.length
decreasing_by
  · exact h
  · exact hrest

/-- Reads the name of a field and the colon after it. -/
def fieldName? (kept : Bool) (cs : List Char) : Option (String × Rest cs) := do
  let (quote, ⟨afterQuote, hquote⟩) ← token? cs
  if quote != '"' then none
  else
    let (name, ⟨afterName, hname⟩) ← stringBody? kept afterQuote
    let (colon, ⟨rest, hrest⟩) ← token? afterName
    have h := Text.lt_of_lt_lt hquote hname
    if colon != ':' then none else return (.ofList name, ⟨rest, Text.lt_of_lt_lt h hrest⟩)

/-- Reads a value other than an array or object. -/
def scalar? (kept : Bool) (cs : List Char) : Option (Json × Rest cs) :=
  match Text.char? '"' cs with
  | some ⟨afterQuote, hquote⟩ => do
      let (body, ⟨rest, hrest⟩) ← stringBody? kept afterQuote
      return (.string (.ofList body), ⟨rest, Text.lt_of_lt_lt hquote hrest⟩)
  | none =>
      match Text.word? 'n' ['u', 'l', 'l'] cs with
      | some rest => some (.null, rest)
      | none =>
          match Text.word? 't' ['r', 'u', 'e'] cs with
          | some rest => some (.bool true, rest)
          | none =>
              match Text.word? 'f' ['a', 'l', 's', 'e'] cs with
              | some rest => some (.bool false, rest)
              | none => do
                  let (numeral, rest) ← numeral? cs
                  if kept then return (← numeral.value?, rest) else return (.null, rest)

/-- How deep a value may nest inside another one: the limit less one, and no limit for what is
skipped. Nothing if the limit is used up. -/
def deeper? : (limit : Option Nat) → Option (Option Nat)
  | none => some none
  | some 0 => none
  | some 1 => none
  | some (n + 2) => some (some (n + 1))

mutual

/-- Reads a value. Without a limit the value is skipped. -/
def value? (limit : Option Nat) (cs : List Char) : Option (Json × Rest cs) := do
  let ⟨start, hstart⟩ := skipSpace cs
  let (c, ⟨afterFirst, hfirst⟩) ← Text.one? (fun _ => true) start
  if c == '[' then
    let (items, ⟨rest, hrest⟩) ← items? (← deeper? limit) afterFirst
    have h := Text.lt_of_le_lt hstart hfirst
    return (.array items, ⟨rest, Text.lt_of_lt_lt h hrest⟩)
  else if c == '\x7b' then
    let (fields, ⟨rest, hrest⟩) ← fields? (← deeper? limit) afterFirst
    have h := Text.lt_of_le_lt hstart hfirst
    return (.object (lastFields fields), ⟨rest, Text.lt_of_lt_lt h hrest⟩)
  else
    let (json, ⟨rest, hrest⟩) ← scalar? limit.isSome start
    return (json, ⟨rest, Text.lt_of_le_lt hstart hrest⟩)
termination_by 3 * cs.length

/-- Reads the items of an array after its bracket. -/
def items? (limit : Option Nat) (cs : List Char) : Option (List Json × Rest cs) := do
  let (c, ⟨rest, hrest⟩) ← token? cs
  if c == ']' then return ([], ⟨rest, hrest⟩) else moreItems? limit cs
termination_by 3 * cs.length + 2

/-- Reads at least one item and the closing bracket. -/
def moreItems? (limit : Option Nat) (cs : List Char) : Option (List Json × Rest cs) := do
  let (item, ⟨afterItem, hitem⟩) ← value? limit cs
  let (c, ⟨afterToken, htoken⟩) ← token? afterItem
  have h := Text.lt_of_lt_lt hitem htoken
  if c == ']' then return ([item], ⟨afterToken, h⟩)
  else if c == ',' then
    let (items, ⟨rest, hrest⟩) ← moreItems? limit afterToken
    return (item :: items, ⟨rest, Text.lt_of_lt_lt h hrest⟩)
  else none
termination_by 3 * cs.length + 1

/-- Reads the fields of an object after its brace. -/
def fields? (limit : Option Nat) (cs : List Char) : Option (List (String × Json) × Rest cs) := do
  let (c, ⟨rest, hrest⟩) ← token? cs
  if c == '\x7d' then return ([], ⟨rest, hrest⟩) else moreFields? limit cs
termination_by 3 * cs.length + 2

/-- Reads at least one field and the closing brace. -/
def moreFields? (limit : Option Nat) (cs : List Char) :
    Option (List (String × Json) × Rest cs) := do
  let (name, ⟨afterName, hname⟩) ← fieldName? limit.isSome cs
  let (value, ⟨afterValue, hvalue⟩) ← value? limit afterName
  let (c, ⟨afterToken, htoken⟩) ← token? afterValue
  have hpair := Text.lt_of_lt_lt hname hvalue
  have h := Text.lt_of_lt_lt hpair htoken
  if c == '\x7d' then return ([(name, value)], ⟨afterToken, h⟩)
  else if c == ',' then
    let (fields, ⟨rest, hrest⟩) ← moreFields? limit afterToken
    return ((name, value) :: fields, ⟨rest, Text.lt_of_lt_lt h hrest⟩)
  else none
termination_by 3 * cs.length + 1

end

/-- The depth to which values may nest where nothing else is said. -/
def defaultDepth : Nat := 128

def read? (depth : Nat) (s : String) : Option Json := do
  let (json, ⟨rest, _⟩) ← value? (some depth) s.toList
  if rest.all isSpace then return json else none

end TableCalc.Json
