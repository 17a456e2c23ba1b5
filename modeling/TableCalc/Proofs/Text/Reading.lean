import TableCalc.Text.Rest

/-!
What readers read. A reader returns what is left of a text together with the proof that it is
shorter; the statements here forget that proof. The elementary readers are described in both
directions at once: what they accept, and where they stop.
-/

namespace TableCalc.Text

variable {α : Type} {cs rest : List Char}

/-- A reader gives `a` and leaves `rest`. -/
def Reads (result : Option (α × Rest cs)) (a : α) (rest : List Char) : Prop :=
  ∃ h, result = some (a, ⟨rest, h⟩)

/-- A reader that gives nothing leaves `rest`. -/
def Leaves (result : Option (Rest cs)) (rest : List Char) : Prop :=
  ∃ h, result = some ⟨rest, h⟩

/-- A text that is empty or starts with a character that does not satisfy `p`. -/
def Stops (p : Char → Bool) (cs : List Char) : Prop := ∀ c ∈ cs.head?, p c = false

@[simp]
theorem stops_nil (p : Char → Bool) : Stops p [] := by
  intro c h
  cases h

@[simp]
theorem stops_cons (p : Char → Bool) (c : Char) (cs : List Char) :
    Stops p (c :: cs) ↔ p c = false := by
  simp [Stops]

theorem stops_of_head {p : Char → Bool} {c : Char} (h : p c = false) (cs : List Char) :
    Stops p (c :: cs) :=
  (stops_cons p c cs).mpr h

theorem stops_mono {p q : Char → Bool} (hpq : ∀ c, q c = false → p c = false) (h : Stops q cs) :
    Stops p cs := fun c hc => hpq c (h c hc)

/-- A text that stops at `c` does not start with it. -/
theorem ne_cons_of_stops {p : Char → Bool} {c : Char} (h : Stops p cs) (hc : p c = true) :
    cs ≠ c :: rest := by
  rintro rfl
  rw [stops_cons, hc] at h
  cases h

theorem ne_of_class {p : Char → Bool} {c d : Char} (hc : p c = true) (hd : p d = false) : c ≠ d := by
  rintro rfl
  rw [hc] at hd
  cases hd

theorem reads_bind {γ : Type} {x : Option γ} {f : γ → Option (α × Rest cs)} {a : α} :
    Reads (x >>= f) a rest ↔ ∃ y, x = some y ∧ Reads (f y) a rest := by
  cases x <;> simp [Reads]

theorem leaves_bind {γ : Type} {x : Option γ} {f : γ → Option (Rest cs)} :
    Leaves (x >>= f) rest ↔ ∃ y, x = some y ∧ Leaves (f y) rest := by
  cases x <;> simp [Leaves]

theorem reads_pure {a b : α} {left : Rest cs} :
    Reads (pure (b, left)) a rest ↔ b = a ∧ left.val = rest := by
  constructor
  · rintro ⟨_, heq⟩
    cases heq
    exact ⟨rfl, rfl⟩
  · rintro ⟨rfl, rfl⟩
    exact ⟨left.property, rfl⟩

theorem leaves_pure {left : Rest cs} : Leaves (pure left) rest ↔ left.val = rest := by
  constructor
  · rintro ⟨_, heq⟩
    cases heq
    rfl
  · rintro rfl
    exact ⟨left.property, rfl⟩

theorem reads_map {β : Type} {x : Option (β × Rest cs)} {f : β → α} {a : α} :
    Reads (x.map fun result => (f result.1, result.2)) a rest ↔
      ∃ b, Reads x b rest ∧ f b = a := by
  cases x with
  | none => simp [Reads]
  | some result =>
    constructor
    · intro h
      obtain ⟨ha, hrest⟩ := reads_pure.mp h
      exact ⟨result.1, reads_pure.mpr ⟨rfl, hrest⟩, ha⟩
    · rintro ⟨b, hread, ha⟩
      obtain ⟨rfl, hrest⟩ := reads_pure.mp hread
      exact reads_pure.mpr ⟨ha, hrest⟩

theorem reads_map_leaves {x : Option (Rest cs)} {a b : α} :
    Reads (x.map fun left => (b, left)) a rest ↔ Leaves x rest ∧ b = a := by
  cases x with
  | none => simp [Reads, Leaves]
  | some left => exact reads_pure.trans (and_comm.trans (and_congr_left' leaves_pure.symm))

/-- A choice reads what its first part reads, and what its second part reads where the first one
does not fit. -/
theorem reads_orElse {x y : Option (α × Rest cs)} {a : α} :
    Reads (x <|> y) a rest ↔ Reads x a rest ∨ x = none ∧ Reads y a rest := by
  cases x with
  | none => simp [Reads]
  | some result => simp [Reads]

/-- Something that may stand behind what was read: with it the result is one value, without it the
result is another and nothing more is read. -/
theorem reads_optional {β : Type} {mid : List Char} {x : Option (β × Rest mid)}
    {result : Option (α × Rest cs)} {present : β → List Char → α}
    {absent a : α} (hpresent : ∀ b left, Reads x b left → Reads result (present b left) left)
    (habsent : x = none → Reads result absent mid) :
    Reads result a rest ↔
      (∃ b, Reads x b rest ∧ present b rest = a) ∨ x = none ∧ absent = a ∧ mid = rest := by
  cases x with
  | none =>
    obtain ⟨_, rfl⟩ := habsent rfl
    constructor
    · intro h
      exact .inr ⟨rfl, reads_pure.mp h⟩
    · rintro (⟨_, ⟨_, h⟩, _⟩ | ⟨_, h⟩)
      · cases h
      · exact reads_pure.mpr h
  | some found =>
    obtain ⟨_, rfl⟩ := hpresent found.1 found.2.1 ⟨found.2.2, rfl⟩
    constructor
    · intro h
      obtain ⟨ha, rfl⟩ := reads_pure.mp h
      exact .inl ⟨found.1, reads_pure.mpr ⟨rfl, rfl⟩, ha⟩
    · rintro (⟨b, hread, ha⟩ | ⟨h, _⟩)
      · obtain ⟨rfl, rfl⟩ := reads_pure.mp hread
        exact reads_pure.mpr ⟨ha, rfl⟩
      · cases h

theorem exists_reads_and {x : Option (α × Rest cs)} {a : α} {p : Prop} :
    (∃ h, x = some (a, ⟨rest, h⟩) ∧ p) ↔ Reads x a rest ∧ p :=
  exists_and_right

theorem exists_leaves_and {x : Option (Rest cs)} {p : Prop} :
    (∃ h, x = some ⟨rest, h⟩ ∧ p) ↔ Leaves x rest ∧ p :=
  exists_and_right

/-- Something, and behind it something else that may be missing. -/
theorem reads_bind_optional {β γ : Type} {x : Option (β × Rest cs)}
    {y? : (cs : List Char) → Option (γ × Rest cs)} {f : β × Rest cs → Option (α × Rest cs)}
    {present : β → γ → α} {absent : β → α} {a : α}
    (hpresent : ∀ b mid h c left, Reads (y? mid) c left →
      Reads (f (b, ⟨mid, h⟩)) (present b c) left)
    (habsent : ∀ b mid h, y? mid = none → Reads (f (b, ⟨mid, h⟩)) (absent b) mid) :
    Reads (x >>= f) a rest ↔
      ∃ b mid, Reads x b mid ∧
        ((∃ c, Reads (y? mid) c rest ∧ present b c = a) ∨
          y? mid = none ∧ absent b = a ∧ mid = rest) := by
  simp only [reads_bind, Prod.exists, Subtype.exists]
  refine exists_congr fun b => exists_congr fun mid =>
    Iff.trans (exists_congr fun h => and_congr_right fun _ => ?_) exists_reads_and
  exact reads_optional (hpresent b mid h) (habsent b mid h)

theorem reads_ite {c : Prop} [Decidable c] {x : Option (α × Rest cs)} {a : α} :
    Reads (if c then none else x) a rest ↔ ¬ c ∧ Reads x a rest := by
  by_cases h : c <;> simp [h, Reads]

theorem eq_none_iff {x : Option (α × Rest cs)} : x = none ↔ ∀ a rest, ¬ Reads x a rest := by
  constructor
  · rintro rfl a rest ⟨_, h⟩
    cases h
  · intro h
    cases hx : x with
    | none => rfl
    | some result => exact absurd ⟨result.2.2, hx⟩ (h result.1 result.2.1)

/-- A reader gives one result. -/
theorem Reads.unique {x : Option (α × Rest cs)} {a b : α} {left : List Char} (h : Reads x a rest)
    (hother : Reads x b left) : a = b ∧ rest = left := by
  obtain ⟨_, rfl⟩ := h
  exact reads_pure.mp hother

theorem Reads.length_lt {x : Option (α × Rest cs)} {a : α} (h : Reads x a rest) :
    rest.length < cs.length :=
  h.1

theorem Leaves.length_lt {x : Option (Rest cs)} (h : Leaves x rest) : rest.length < cs.length :=
  h.1

section While

variable {p : α → Bool} {front back : List α}

/-- What satisfies `p` is taken as far as it goes. -/
theorem takeWhile_append (hfront : ∀ a ∈ front, p a = true)
    (hback : ∀ a ∈ back.head?, p a = false) : (front ++ back).takeWhile p = front := by
  rw [List.takeWhile_append_of_pos hfront]
  cases back with
  | nil => simp
  | cons a back => simp [hback a rfl]

theorem dropWhile_append (hfront : ∀ a ∈ front, p a = true)
    (hback : ∀ a ∈ back.head?, p a = false) : (front ++ back).dropWhile p = back := by
  rw [List.dropWhile_append_of_pos hfront]
  cases back with
  | nil => rfl
  | cons a back => simp [hback a rfl]

theorem stops_dropWhile (p : α → Bool) (as : List α) :
    ∀ a ∈ (as.dropWhile p).head?, p a = false := by
  intro a ha
  have h := List.head?_dropWhile_not p as
  rw [Option.mem_def.mp ha] at h
  exact h

end While

/-- Reading as many characters as there are splits the text where they end. -/
theorem many_eq_iff {p : Char → Bool} {xs : List Char} :
    ((many p cs).1 = xs ∧ (many p cs).2.val = rest) ↔
      cs = xs ++ rest ∧ (∀ c ∈ xs, p c = true) ∧ Stops p rest := by
  constructor
  · rintro ⟨rfl, rfl⟩
    exact ⟨List.takeWhile_append_dropWhile.symm, List.all_eq_true.mp List.all_takeWhile,
      stops_dropWhile p cs⟩
  · rintro ⟨rfl, h, hrest⟩
    exact ⟨takeWhile_append h hrest, dropWhile_append h hrest⟩

theorem one?_reads {p : Char → Bool} {c : Char} :
    Reads (one? p cs) c rest ↔ cs = c :: rest ∧ p c = true := by
  cases cs with
  | nil => simp [one?, Reads]
  | cons d cs =>
    simp only [one?]
    split
    · next hd =>
      constructor
      · rintro ⟨_, h⟩
        cases h
        exact ⟨rfl, hd⟩
      · rintro ⟨h, _⟩
        cases h
        exact ⟨by simp, rfl⟩
    · next hd =>
      constructor
      · rintro ⟨_, h⟩
        cases h
      · rintro ⟨h, hc⟩
        cases h
        exact absurd hc hd

theorem one?_eq_none {p : Char → Bool} (h : Stops p cs) : one? p cs = none := by
  cases cs with
  | nil => rfl
  | cons c cs => exact if_neg (ne_true_of_eq_false ((stops_cons p c cs).mp h))

theorem char?_leaves {c : Char} : Leaves (char? c cs) rest ↔ cs = c :: rest := by
  have hmap : Leaves (char? c cs) rest ↔ ∃ d, Reads (one? (· == c) cs) d rest := by
    simp only [char?, Leaves, Reads, Option.map_eq_some_iff, Prod.exists]
    constructor
    · rintro ⟨h, d, left, hone, rfl⟩
      exact ⟨d, h, hone⟩
    · rintro ⟨d, h, hone⟩
      exact ⟨h, d, _, hone, rfl⟩
  simp only [hmap, one?_reads, beq_iff_eq]
  constructor
  · rintro ⟨d, rfl, rfl⟩
    rfl
  · rintro rfl
    exact ⟨c, rfl, rfl⟩

theorem word?_leaves {c : Char} {more : List Char} :
    Leaves (word? c more cs) rest ↔ cs = c :: more ++ rest := by
  induction more generalizing c cs with
  | nil => exact char?_leaves
  | cons d more ih =>
    simp only [word?, leaves_bind, leaves_pure, Subtype.exists]
    constructor
    · rintro ⟨mid, hmid, hc, left, hleft, hmore, rfl⟩
      have hchar := char?_leaves.mp ⟨hmid, hc⟩
      have hword := ih.mp ⟨hleft, hmore⟩
      rw [hchar, hword]
      rfl
    · intro h
      obtain ⟨hmid, hc⟩ := char?_leaves.mpr h
      have hword : Leaves (word? d more (d :: more ++ rest)) rest := ih.mpr rfl
      obtain ⟨hleft, hmore⟩ := hword
      exact ⟨_, hmid, hc, rest, hleft, hmore, rfl⟩

theorem char?_eq_none {c : Char} (h : ∀ rest, cs ≠ c :: rest) : char? c cs = none := by
  cases hx : char? c cs with
  | none => rfl
  | some left => exact absurd (char?_leaves.mp ⟨left.property, hx⟩) (h left.val)

theorem word?_eq_none {c : Char} {more : List Char} (h : ∀ rest, cs ≠ c :: more ++ rest) :
    word? c more cs = none := by
  cases hx : word? c more cs with
  | none => rfl
  | some left => exact absurd (word?_leaves.mp ⟨left.property, hx⟩) (h left.val)

theorem char?_cons_eq_none {c d : Char} (h : d ≠ c) : char? c (d :: cs) = none :=
  char?_eq_none fun _ hcs => h (List.cons.inj hcs).1

theorem word?_cons_eq_none {c d : Char} {more : List Char} (h : d ≠ c) :
    word? c more (d :: cs) = none :=
  word?_eq_none fun _ hcs => h (List.cons.inj hcs).1

theorem some?_reads {p : Char → Bool} {xs : List Char} :
    Reads (some? p cs) xs rest ↔
      cs = xs ++ rest ∧ xs ≠ [] ∧ (∀ c ∈ xs, p c = true) ∧ Stops p rest := by
  simp only [some?, reads_bind, reads_pure, Prod.exists, Subtype.exists]
  constructor
  · rintro ⟨c, mid, hmid, hone, rfl, rfl⟩
    obtain ⟨rfl, hc⟩ := one?_reads.mp ⟨hmid, hone⟩
    obtain ⟨hsplit, hall, hstop⟩ := many_eq_iff.mp ⟨rfl, rfl⟩
    refine ⟨congrArg (c :: ·) hsplit, List.cons_ne_nil _ _, ?_, hstop⟩
    intro d hd
    cases hd with
    | head => exact hc
    | tail _ hd => exact hall d hd
  · rintro ⟨rfl, hne, hall, hstop⟩
    cases xs with
    | nil => exact absurd rfl hne
    | cons c xs =>
      have hc : Reads (one? p (c :: xs ++ rest)) c (xs ++ rest) :=
        one?_reads.mpr ⟨rfl, hall c List.mem_cons_self⟩
      have hmany : (many p (xs ++ rest)).1 = xs ∧ (many p (xs ++ rest)).2.val = rest :=
        many_eq_iff.mpr ⟨rfl, fun d hd => hall d (List.mem_cons_of_mem c hd), hstop⟩
      obtain ⟨hmid, hone⟩ := hc
      exact ⟨c, _, hmid, hone, congrArg (c :: ·) hmany.1, hmany.2⟩

end TableCalc.Text
