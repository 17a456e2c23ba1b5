import TableCalc.Function.Basic
import TableCalc.Text.LetterCase

/-!
The functions that formulas can call, by name. Names are kept in lower case, so that each name has
one function whatever the case of its letters. For a name without a function similar names are told:
the score of a name counts whether one name stands in the other, how many letters they share, and how
close their lengths are.
-/

namespace TableCalc

namespace Similarity

/-- Whether a text stands somewhere in another one. -/
def occursIn (part : List Char) : List Char → Bool
  | [] => part.isEmpty
  | c :: cs => part.isPrefixOf (c :: cs) || occursIn part cs

/-- What it counts that one name stands in the other; most if it stands at the start. -/
def containment (query candidate : List Char) : Nat :=
  if query.isPrefixOf candidate then 100
  else if occursIn query candidate then 50
  else if occursIn candidate query then 30
  else 0

def sharedCharacters (query candidate : List Char) : Nat :=
  (query.eraseDups.filter (candidate.contains ·)).length

def lengthDifference (m n : Nat) : Nat := max m n - min m n

/-- The score of a name for a query. Lengths are lengths in UTF-8, and count only where something
else does. -/
def score (query candidate : String) : Nat :=
  let found := containment query.toList candidate.toList +
    2 * sharedCharacters query.toList candidate.toList
  let difference := lengthDifference query.utf8ByteSize candidate.utf8ByteSize
  if difference < 5 && 0 < found then found + (5 - difference) else found

end Similarity

structure Registry where
  entries : List (String × Function)
  distinct : (entries.map Prod.fst).Nodup := by simp

/-- The most names that are told where a function is not known. -/
def Help.maxSimilar : Nat := 5

namespace Registry

/-- How deep calls of functions by functions may nest. -/
def maxNestedCalls : Nat := 1000

/-- What becomes of a call that nests deeper. -/
def stackExhausted : FormulaError := .internal "stack exhausted"

def empty : Registry := { entries := [] }

/-- The registry with one more function, which replaces another one of its name. -/
def insert (registry : Registry) (f : Function) : Registry where
  entries := registry.entries.filter (·.1 != Text.lower f.info.name) ++
    [(Text.lower f.info.name, f)]
  distinct := by
    rw [List.map_append, List.nodup_append]
    refine ⟨(List.filter_sublist.map Prod.fst).nodup registry.distinct, by simp, ?_⟩
    intro a ha b hb
    simp only [List.mem_map, List.mem_filter, List.map_cons, List.map_nil,
      List.mem_singleton] at ha hb
    obtain ⟨entry, ⟨_, hentry⟩, rfl⟩ := ha
    simpa [hb] using hentry

/-- The registry of the given functions. Of functions with one name the last one stays. -/
def ofList (functions : List Function) : Registry := functions.foldl insert empty

def names (registry : Registry) : List String := registry.entries.map Prod.fst

/-- The function of a name, whatever the case of its letters. -/
def find? (registry : Registry) (name : String) : Option Function :=
  registry.entries.lookup (Text.lower name)

/-- Whether a name is written exactly as its function has it. -/
def isExactName (registry : Registry) (name : String) : Bool :=
  (registry.find? name).any (·.info.name == name)

/-- Names with scores: higher scores first, and names in order among equal ones. -/
def rankedBefore (a b : String × Nat) : Bool :=
  b.2 < a.2 || (a.2 == b.2 && decide (a.1 ≤ b.1))

/-- The names that are similar to a name, the most similar one first. -/
def similar (registry : Registry) (name : String) : List String :=
  let scored := registry.names.map fun candidate =>
    (candidate, Similarity.score (Text.lower name) candidate)
  ((scored.filter (0 < ·.2)).mergeSort rankedBefore).map Prod.fst

/-- The categories of the functions, in order. -/
def categories (registry : Registry) : List String :=
  (registry.entries.map (·.2.info.category)).eraseDups.mergeSort fun a b => decide (a ≤ b)

/-- The names of a category, in order. -/
def namesIn (registry : Registry) (category : String) : List String :=
  ((registry.entries.filter (·.2.info.category == category)).map Prod.fst).mergeSort
    fun a b => decide (a ≤ b)

/-- The documentation of all functions or of those of a category, ordered by name. -/
def list (registry : Registry) (category : Option String) : List FunctionInfo :=
  ((registry.entries.map (·.2.info)).filter fun info => category.all (info.category == ·)).mergeSort
    fun a b => decide (a.name ≤ b.name)

/-- What a registry tells about a name, or about all its functions. -/
def help (registry : Registry) : (name : Option String) → Help
  | some name =>
      match registry.find? name with
      | some f => .function f.info
      | none => .unknown name ((registry.similar name).take Help.maxSimilar)
  | none => .overview (registry.categories.map fun c => (c, registry.namesIn c))

/-- The result of a function in a context, which says what the function sees. -/
def callIn (registry : Registry) (context : Context) (name : String) (input : Grid) :
    Except FormulaError Grid :=
  match registry.find? name with
  | some f => f.call context input
  | none => .error (.unknownFunction name "" (registry.similar name))

/-- What a registry shows to functions, with what becomes of their calls. -/
def catalogWith (registry : Registry)
    (call : (quotientDigits : Nat) → (name : String) → Grid → Except FormulaError Grid) : Catalog where
  info? name := (registry.find? name).map (·.info)
  similar := registry.similar
  help := registry.help
  list := registry.list
  call := call

/-- What functions see of a registry where calls may nest `depth` deep. -/
def catalog (registry : Registry) : (depth : Nat) → Catalog
  | 0 => registry.catalogWith fun _ _ _ => .error stackExhausted
  | depth + 1 => registry.catalogWith fun quotientDigits =>
      registry.callIn ⟨quotientDigits, registry.catalog depth⟩

/-- The context in which formulas call functions. -/
def context (registry : Registry) (quotientDigits : Nat) : Context :=
  ⟨quotientDigits, registry.catalog maxNestedCalls⟩

def call (registry : Registry) (quotientDigits : Nat) : (name : String) → Grid →
    Except FormulaError Grid :=
  registry.callIn (registry.context quotientDigits)

end Registry

end TableCalc
