/-!
Reading from the front of a text. What a reader leaves is a text together with the proof that it is
shorter than the text it was given, so readers that call each other end.
-/

namespace TableCalc.Text

/-- What is left of `cs` after at least one character was read. -/
abbrev Rest (cs : List Char) := { rest : List Char // rest.length < cs.length }

/-- What is left of `cs` after any number of characters was read. -/
abbrev Remaining (cs : List Char) := { rest : List Char // rest.length ≤ cs.length }

theorem lt_of_lt_lt {a b c : List Char} (h₁ : b.length < a.length) (h₂ : c.length < b.length) :
    c.length < a.length := Nat.lt_trans h₂ h₁

theorem lt_of_lt_le {a b c : List Char} (h₁ : b.length < a.length) (h₂ : c.length ≤ b.length) :
    c.length < a.length := Nat.lt_of_le_of_lt h₂ h₁

theorem lt_of_le_lt {a b c : List Char} (h₁ : b.length ≤ a.length) (h₂ : c.length < b.length) :
    c.length < a.length := Nat.lt_of_lt_of_le h₂ h₁

theorem le_of_lt_lt {a b c : List Char} (h₁ : b.length < a.length) (h₂ : c.length < b.length) :
    c.length ≤ a.length := Nat.le_of_lt (lt_of_lt_lt h₁ h₂)

theorem le_of_lt_le {a b c : List Char} (h₁ : b.length < a.length) (h₂ : c.length ≤ b.length) :
    c.length ≤ a.length := Nat.le_of_lt (lt_of_lt_le h₁ h₂)

def unread (cs : List Char) : Remaining cs := ⟨cs, Nat.le_refl _⟩

/-- Reads one character that satisfies `p`. -/
def one? (p : Char → Bool) : (cs : List Char) → Option (Char × Rest cs)
  | [] => none
  | c :: rest => if p c then some (c, ⟨rest, by simp⟩) else none

def char? (c : Char) (cs : List Char) : Option (Rest cs) := (one? (· == c) cs).map (·.2)

/-- Reads a text that consists of `first` and then `more`. -/
def word? (first : Char) : (more : List Char) → (cs : List Char) → Option (Rest cs)
  | [], cs => char? first cs
  | second :: more, cs => do
      let ⟨afterFirst, hfirst⟩ ← char? first cs
      let ⟨rest, hrest⟩ ← word? second more afterFirst
      return ⟨rest, lt_of_lt_lt hfirst hrest⟩

/-- Reads as many characters that satisfy `p` as there are. -/
def many (p : Char → Bool) (cs : List Char) : List Char × Remaining cs :=
  (cs.takeWhile p, ⟨cs.dropWhile p, (List.dropWhile_sublist p).length_le⟩)

/-- Reads as many characters that satisfy `p` as there are, and at least one. -/
def some? (p : Char → Bool) (cs : List Char) : Option (List Char × Rest cs) := do
  let (c, ⟨afterFirst, hfirst⟩) ← one? p cs
  let (more, ⟨rest, hrest⟩) := many p afterFirst
  return (c :: more, ⟨rest, lt_of_lt_le hfirst hrest⟩)

end TableCalc.Text
