import TableCalc.Json.Reader

/-!
Reading requests. A request is an object with a version, a method, and perhaps an id and parameters,
or an array of these in order. Fields of other names are skipped; a field that is given twice spoils
the request.
-/

namespace TableCalc.Server

open Text (Rest)

/-- A request. One without an id gets no reply. -/
structure Request where
  id : Option Json
  method : String
  params : Option Json

def requestFields : List String := ["jsonrpc", "id", "method", "params"]

/-- How deep the values of a request may nest, the request itself counted. -/
def valueDepth : Nat := Json.defaultDepth - 1

/-- Reads the fields of a request and the closing brace. -/
def readFields? (cs : List Char) : Option (List (String × Json) × Rest cs) := do
  let (name, ⟨afterName, hname⟩) ← Json.fieldName? true cs
  let limit := if requestFields.contains name then some valueDepth else none
  let (value, ⟨afterValue, hvalue⟩) ← Json.value? limit afterName
  let (c, ⟨afterToken, htoken⟩) ← Json.token? afterValue
  have hpair := Text.lt_of_lt_lt hname hvalue
  have h := Text.lt_of_lt_lt hpair htoken
  if c == '\x7d' then return ([(name, value)], ⟨afterToken, h⟩)
  else if c == ',' then
    let (fields, ⟨rest, hrest⟩) ← readFields? afterToken
    return ((name, value) :: fields, ⟨rest, Text.lt_of_lt_lt h hrest⟩)
  else none
termination_by cs.length
decreasing_by exact h

/-- A value, where `null` stands for none. -/
def orNull : Option Json → Option Json
  | some .null => none
  | json => json

/-- The value of a field that may be given once at most; nothing if it is given twice. -/
def once? (fields : List (String × Json)) (name : String) : Option (Option Json) :=
  match (fields.filter (·.1 == name)).map Prod.snd with
  | [] => some none
  | [value] => some (some value)
  | _ => none

def Request.ofParts? (version id method params : Option Json) : Option Request := do
  let _ ← (← version).string?
  return { id := orNull id, method := ← (← method).string?, params := orNull params }

def Request.ofFields? (fields : List (String × Json)) : Option Request := do
  ofParts? (← once? fields "jsonrpc") (← once? fields "id") (← once? fields "method")
    (← once? fields "params")

/-- The request of the items of an array. -/
def Request.ofItems? : List Json → Option Request
  | [version, id, method] => ofParts? (some version) (some id) (some method) none
  | [version, id, method, params] =>
      ofParts? (some version) (some id) (some method) (some params)
  | _ => none

/-- Reads a request that makes up a whole text. -/
def Request.read? (cs : List Char) : Option Request := do
  let (c, ⟨afterFirst, _⟩) ← Json.token? cs
  if c == '\x7b' then
    let (fields, ⟨rest, _⟩) ← readFields? afterFirst
    if rest.all Json.isSpace then Request.ofFields? fields else none
  else if c == '[' then
    let (items, ⟨rest, _⟩) ← Json.items? (some valueDepth) afterFirst
    if rest.all Json.isSpace then Request.ofItems? items else none
  else none

end TableCalc.Server
