import TableCalc.Json.Binary64

/-!
JSON values. Whole numbers of 64 bits are kept exactly, all other numbers as binary floating-point
numbers. An object is a list of fields with distinct names.
-/

namespace TableCalc

inductive Json where
  | null
  | bool (value : Bool)
  | int (value : Int)
  | float (value : Json.Binary64)
  | string (value : String)
  | array (items : List Json)
  | object (fields : List (String × Json))
deriving Repr, Inhabited

namespace Json

/-- The fields of an object as written, the last one kept of those that share a name. -/
def lastFields : List (String × Json) → List (String × Json)
  | [] => []
  | field :: rest =>
      if rest.any (·.1 == field.1) then lastFields rest else field :: lastFields rest

/-- The field of an object; nothing for other values. -/
def field? (name : String) : Json → Option Json
  | .object fields => fields.lookup name
  | _ => none

def string? : Json → Option String
  | .string s => some s
  | _ => none

def array? : Json → Option (List Json)
  | .array items => some items
  | _ => none

/-- A whole number of 64 bits. -/
def int? : Json → Option Int
  | .int n => some n
  | _ => none

def strings? (json : Json) : Option (List String) := do (← json.array?).mapM string?

def stringRows? (json : Json) : Option (List (List String)) := do (← json.array?).mapM strings?

def ofStrings (items : List String) : Json := .array (items.map .string)

def ofRows (rows : List (List String)) : Json := .array (rows.map ofStrings)

def ofNat (n : Nat) : Json := .int n

/-- A value, or `null` if there is none. -/
def ofOption {α : Type} (encode : α → Json) : Option α → Json
  | none => .null
  | some x => encode x

end Json

end TableCalc
