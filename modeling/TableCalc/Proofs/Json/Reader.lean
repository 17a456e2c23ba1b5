import TableCalc.Json.Printer
import TableCalc.Json.Reader
import TableCalc.Proofs.Text.Digits
import TableCalc.Proofs.Text.Reading

/-!
Printed JSON is read back. Each part of a text is read as what it was printed for, whatever stands
behind it, unless that would continue a number.
-/

namespace TableCalc.Json

open Text (Reads Leaves Stops stops_mono ne_of_class ne_cons_of_stops one?_eq_none char?_eq_none
  char?_cons_eq_none word?_cons_eq_none)

/-- A value that reading gives back: its whole numbers fit 64 bits, it has no other numbers, the
fields of its objects have different names, and its arrays and objects nest `depth` deep at most. -/
inductive Plain : (depth : Nat) → Json → Prop where
  | null (depth : Nat) : Plain depth .null
  | bool (depth : Nat) (value : Bool) : Plain depth (.bool value)
  | int (depth : Nat) {n : Int} (hlow : Text.minInt64 ≤ n) (hhigh : n ≤ Text.maxWord) :
      Plain depth (.int n)
  | string (depth : Nat) (s : String) : Plain depth (.string s)
  | array {depth : Nat} {items : List Json} (hitems : ∀ item ∈ items, Plain depth item) :
      Plain (depth + 1) (.array items)
  | object {depth : Nat} {fields : List (String × Json)} (hnames : (fields.map Prod.fst).Nodup)
      (hvalues : ∀ field ∈ fields, Plain depth field.2) : Plain (depth + 1) (.object fields)

variable {kept : Bool} {c : Char} {cs mid rest : List Char}

section Tokens

theorem skipSpace_eq (h : Stops isSpace cs) : skipSpace cs = Text.unread cs :=
  Subtype.ext (Text.dropWhile_append (List.forall_mem_nil _) h)

theorem token?_reads (hc : isSpace c = false) (rest : List Char) :
    Reads (token? (c :: rest)) c rest := by
  rw [token?, skipSpace_eq (Text.stops_of_head hc rest)]
  exact ⟨_, rfl⟩

end Tokens

section Strings

theorem stringBody?_close : Reads (stringBody? kept ('"' :: rest)) [] rest := by
  rw [stringBody?]
  exact ⟨_, rfl⟩

theorem stringBody?_escape {more : List Char} (hescape : Reads (escape? kept cs) c mid)
    (hmore : Reads (stringBody? kept mid) more rest) :
    Reads (stringBody? kept ('\\' :: cs)) (c :: more) rest := by
  obtain ⟨hmid, hescape⟩ := hescape
  obtain ⟨hrest, hmore⟩ := hmore
  rw [stringBody?]
  simp only [Text.one?, if_true, Option.bind_eq_bind, Option.bind_some, hescape, hmore]
  exact ⟨_, rfl⟩

theorem stringBody?_plain {more : List Char} (hquote : c ≠ '"') (hbackslash : c ≠ '\\')
    (hcontrol : 0x20 ≤ c.toNat) (hmore : Reads (stringBody? kept cs) more rest) :
    Reads (stringBody? kept (c :: cs)) (c :: more) rest := by
  obtain ⟨hrest, hmore⟩ := hmore
  rw [stringBody?]
  simp only [Text.one?, if_true, Option.bind_eq_bind, Option.bind_some, beq_iff_eq, hquote,
    hbackslash, Nat.not_lt.mpr hcontrol, if_false, hmore]
  exact ⟨_, rfl⟩

theorem hexDigit?_digitChar : ∀ n < 16, hexDigit? (Nat.digitChar n) = some n := by
  decide

/-- A control character is read from the digits of its code. -/
theorem escape?_control (hc : c.toNat < 0x20) :
    Reads (escape? kept ('u' :: '0' :: '0' :: Nat.digitChar (c.toNat / 16) ::
      Nat.digitChar (c.toNat % 16) :: rest)) c rest := by
  have hhigh := hexDigit?_digitChar (c.toNat / 16) (by omega)
  have hlow := hexDigit?_digitChar (c.toNat % 16) (by omega)
  have hzero : hexDigit? '0' = some 0 := rfl
  have hword : 0 * 4096 + 0 * 256 + c.toNat / 16 * 16 + c.toNat % 16 = c.toNat := by omega
  have hpair : isHighSurrogate c.toNat = false ∧ isLowSurrogate c.toNat = false := by
    simp only [isHighSurrogate, isLowSurrogate, Bool.and_eq_false_imp, decide_eq_true_eq,
      decide_eq_false_iff_not]
    omega
  have hcode : Char.ofNat c.toNat = c := Char.ofNat_toNat c
  simp only [escape?, Text.one?, if_true, Option.bind_eq_bind, Option.bind_some, codePoint?,
    hexWord?, hzero, hhigh, hlow, Option.pure_def, hword, hpair, hcode]
  cases kept <;> exact ⟨_, rfl⟩

theorem stringBody?_escaped (c : Char) {more : List Char}
    (hmore : Reads (stringBody? kept cs) more rest) :
    Reads (stringBody? kept (escaped c ++ cs)) (c :: more) rest := by
  by_cases hmarked : c ∈ ['"', '\\', '\n', '\r', '\t', '\x08', '\x0c']
  · -- A character with a mark of its own.
    simp only [List.mem_cons, List.not_mem_nil, or_false] at hmarked
    rcases hmarked with rfl | rfl | rfl | rfl | rfl | rfl | rfl
    all_goals exact stringBody?_escape ⟨_, rfl⟩ hmore
  · simp only [List.mem_cons, List.not_mem_nil, or_false, not_or] at hmarked
    obtain ⟨hquote, hbackslash, hfeed, hreturn, htab, hback, hform⟩ := hmarked
    have hescaped : escaped c =
        if c.toNat < 0x20 then
          ['\\', 'u', '0', '0', Nat.digitChar (c.toNat / 16), Nat.digitChar (c.toNat % 16)]
        else [c] := by
      simp only [escaped, beq_iff_eq, hquote, hbackslash, hfeed, hreturn, htab, hback, hform,
        if_false]
    by_cases hcontrol : c.toNat < 0x20
    · rw [hescaped, if_pos hcontrol]
      exact stringBody?_escape (escape?_control hcontrol) hmore
    · rw [hescaped, if_neg hcontrol]
      exact stringBody?_plain hquote hbackslash (Nat.not_lt.mp hcontrol) hmore

theorem stringBody?_reads (kept : Bool) (s rest : List Char) :
    Reads (stringBody? kept (s.flatMap escaped ++ '"' :: rest)) s rest := by
  induction s with
  | nil => exact stringBody?_close
  | cons c s ih =>
    rw [List.flatMap_cons, List.append_assoc]
    exact stringBody?_escaped c ih

theorem fieldName?_reads (name : String) :
    Reads (fieldName? kept (quoted name ++ ':' :: rest)) name rest := by
  obtain ⟨hquote, hquoted⟩ := token?_reads (c := '"') rfl
    (name.toList.flatMap escaped ++ '"' :: ':' :: rest)
  obtain ⟨hname, hbody⟩ := stringBody?_reads kept name.toList (':' :: rest)
  obtain ⟨hcolon, htoken⟩ := token?_reads (c := ':') rfl rest
  rw [quoted, List.cons_append, List.cons_append, List.append_assoc, List.singleton_append,
    fieldName?]
  simp only [Option.bind_eq_bind, hquoted, Option.bind_some, hbody, htoken]
  exact ⟨_, congrArg some (Prod.ext String.ofList_toList rfl)⟩

end Strings

section Numbers

/-- What stands behind a number and does not continue it. -/
def Delimits (cs : List Char) : Prop :=
  Stops (fun c => c.isDigit || c == '.' || c == 'e' || c == 'E') cs

theorem exists_toDigits (n : Nat) : ∃ c cs, Nat.toDigits 10 n = c :: cs ∧ c.isDigit = true := by
  obtain ⟨c, cs, hdigits⟩ := List.exists_cons_of_ne_nil (Nat.toDigits_ne_nil (b := 10) (n := n))
  exact ⟨c, cs, hdigits, Text.isDigit_of_mem_toDigits (hdigits ▸ List.mem_cons_self)⟩

/-- How the text of a whole number starts. -/
theorem exists_intChars (n : Int) :
    ∃ c cs, intChars n = c :: cs ∧ (c.isDigit || c == '-') = true := by
  obtain ⟨c, cs, hdigits, hc⟩ := exists_toDigits n.natAbs
  rw [intChars, hdigits]
  by_cases hn : n < 0
  · exact ⟨'-', c :: cs, by rw [if_pos hn]; rfl, rfl⟩
  · exact ⟨c, cs, by rw [if_neg hn]; rfl, by rw [hc]; rfl⟩

theorem ne_of_number {d : Char} (hc : (c.isDigit || c == '-') = true)
    (hd : (d.isDigit || d == '-') = false) : c ≠ d :=
  ne_of_class (p := fun c => c.isDigit || c == '-') hc hd

theorem isSpace_of_number (hc : (c.isDigit || c == '-') = true) : isSpace c = false := by
  have hspace : c ≠ ' ' := ne_of_number hc rfl
  have hfeed : c ≠ '\n' := ne_of_number hc rfl
  have hreturn : c ≠ '\r' := ne_of_number hc rfl
  have htab : c ≠ '\t' := ne_of_number hc rfl
  simp only [isSpace, Bool.or_eq_false_iff, beq_eq_false_iff_ne]
  exact ⟨⟨⟨hspace, hfeed⟩, hreturn⟩, htab⟩

variable (hrest : Delimits rest)

include hrest

theorem unsigned?_reads (negative : Bool) (n : Nat) :
    Reads (unsigned? negative (Nat.toDigits 10 n ++ rest))
      ⟨negative, Nat.toDigits 10 n, none, none⟩ rest := by
  have hdigit : Stops Char.isDigit rest := stops_mono (by simp +contextual) hrest
  have hmarks : Stops (fun c => c == 'e' || c == 'E') rest := stops_mono (by simp +contextual) hrest
  have hpoint : Text.char? '.' rest = none := char?_eq_none fun _ => ne_cons_of_stops hrest rfl
  have hmark : Text.one? (fun c => c == 'e' || c == 'E') rest = none := one?_eq_none hmarks
  have hdigits :
      Reads (Text.some? Char.isDigit (Nat.toDigits 10 n ++ rest)) (Nat.toDigits 10 n) rest :=
    Text.some?_reads.mpr ⟨rfl, Nat.toDigits_ne_nil, fun _ => Text.isDigit_of_mem_toDigits, hdigit⟩
  obtain ⟨hlength, hdigits⟩ := hdigits
  have hzero : ((Nat.toDigits 10 n).head? == some '0' && Nat.toDigits 10 n != ['0']) = false := by
    rcases eq_or_ne n 0 with rfl | hn
    · rfl
    · obtain ⟨c, tail, hchars, hc⟩ := Text.toDigits_eq_cons hn
      simp [hchars, hc]
  simp only [unsigned?, wholeDigits?, Option.bind_eq_bind, hdigits, Option.bind_some, hzero,
    Bool.false_eq_true, if_false, Option.pure_def, fractionDigits?, hpoint, exponentDigits?,
    Text.unread, hmark]
  exact ⟨_, rfl⟩

/-- The parts of a whole number as it is printed. -/
def wholeNumeral (n : Int) : Numeral := ⟨decide (n < 0), Nat.toDigits 10 n.natAbs, none, none⟩

theorem numeral?_reads (n : Int) : Reads (numeral? (intChars n ++ rest)) (wholeNumeral n) rest := by
  obtain ⟨hlength, hunsigned⟩ := unsigned?_reads hrest (decide (n < 0)) n.natAbs
  rw [wholeNumeral, intChars]
  by_cases hn : n < 0
  · obtain ⟨hsign, hminus⟩ : Leaves (Text.char? '-' ('-' :: (Nat.toDigits 10 n.natAbs ++ rest)))
        (Nat.toDigits 10 n.natAbs ++ rest) := Text.char?_leaves.mpr rfl
    rw [decide_eq_true hn] at hunsigned ⊢
    rw [if_pos hn, List.singleton_append, List.cons_append, numeral?]
    simp only [hminus, Option.bind_eq_bind, hunsigned, Option.bind_some]
    exact ⟨_, rfl⟩
  · obtain ⟨c, cs, hdigits, hc⟩ := exists_toDigits n.natAbs
    have hminus : Text.char? '-' (Nat.toDigits 10 n.natAbs ++ rest) = none := by
      rw [hdigits]
      exact char?_cons_eq_none (by rintro rfl; cases hc)
    rw [decide_eq_false hn] at hunsigned ⊢
    rw [if_neg hn, List.nil_append, numeral?, hminus]
    exact ⟨hlength, hunsigned⟩

omit hrest

theorem ofDigitChars_wholeNumeral (n : Int) :
    Nat.ofDigitChars 10 (wholeNumeral n).whole 0 = n.natAbs :=
  Nat.ofDigitChars_toDigits (by decide) (by decide)

theorem value?_wholeNumeral {n : Int} (hlow : Text.minInt64 ≤ n) (hhigh : n ≤ Text.maxWord) :
    (wholeNumeral n).value? = some (.int n) := by
  rw [Numeral.value?, ofDigitChars_wholeNumeral]
  by_cases hn : n < 0
  · have habs : -(n.natAbs : Int) = n := by omega
    have hpos : 0 < n.natAbs := by omega
    simp only [wholeNumeral, Option.isNone_none, hn, hpos, habs, hlow, decide_true, Bool.not_true,
      Bool.and_true, Bool.and_false, Bool.false_and, Bool.false_eq_true, if_true, if_false]
  · have habs : (n.natAbs : Int) = n := by omega
    have hfits : n.natAbs ≤ Text.maxWord := by omega
    simp only [wholeNumeral, Option.isNone_none, hn, hfits, habs, decide_true, decide_false,
      Bool.not_false, Bool.and_true, if_true]

/-- Whole numbers beyond 64 bits are read as floating-point numbers. -/
theorem value?_wholeNumeral_of_lt {n : Int} (h : (Text.maxWord : Int) < n) :
    (wholeNumeral n).value? = (wholeNumeral n).float?.map .float := by
  have hsign : (wholeNumeral n).negative = false := decide_eq_false (by omega)
  have hlarge : ¬ n.natAbs ≤ Text.maxWord := by omega
  rw [Numeral.value?, ofDigitChars_wholeNumeral]
  simp [hsign, hlarge]

end Numbers

section Scalars

theorem scalar?_string (s : String) : Reads (scalar? kept (quoted s ++ rest)) (.string s) rest := by
  obtain ⟨hquote, hopen⟩ : Leaves (Text.char? '"' (quoted s ++ rest))
      (s.toList.flatMap escaped ++ '"' :: rest) :=
    Text.char?_leaves.mpr (by
      rw [quoted, List.cons_append, List.cons_append, List.append_assoc]
      rfl)
  obtain ⟨hbody, hread⟩ := stringBody?_reads kept s.toList rest
  simp only [scalar?, hopen, Option.bind_eq_bind, hread, Option.bind_some]
  exact ⟨_, congrArg some (Prod.ext (congrArg Json.string String.ofList_toList) rfl)⟩

/-- A number is read where it is kept, and passed over where it is not. -/
theorem scalar?_number (kept : Bool) {n : Int} {value : Json}
    (hvalue : (wholeNumeral n).value? = some value) (hrest : Delimits rest) :
    Reads (scalar? kept (intChars n ++ rest)) (if kept then value else .null) rest := by
  have hnumeral := numeral?_reads hrest n
  obtain ⟨c, cs, hchars, hc⟩ := exists_intChars n
  rw [hchars, List.cons_append] at hnumeral ⊢
  obtain ⟨hlength, hread⟩ := hnumeral
  rw [scalar?, char?_cons_eq_none (ne_of_number hc rfl), word?_cons_eq_none (ne_of_number hc rfl),
    word?_cons_eq_none (ne_of_number hc rfl), word?_cons_eq_none (ne_of_number hc rfl)]
  simp only [Option.bind_eq_bind, hread, Option.bind_some, hvalue]
  cases kept <;> exact ⟨_, rfl⟩

end Scalars

section Values

variable {limit : Option Nat} {item : Json} {items : List Json} {name : String} {value : Json}
  {fields : List (String × Json)}

theorem value?_scalar (hspace : isSpace c = false) (hbracket : c ≠ '[') (hbrace : c ≠ '\x7b')
    (h : Reads (scalar? limit.isSome (c :: cs)) value rest) :
    Reads (value? limit (c :: cs)) value rest := by
  obtain ⟨hrest, h⟩ := h
  rw [value?, skipSpace_eq (Text.stops_of_head hspace cs)]
  simp only [Text.unread, Text.one?, if_true, Option.bind_eq_bind, Option.bind_some, beq_iff_eq,
    hbracket, hbrace, if_false, h]
  exact ⟨_, rfl⟩

theorem value?_number {n : Int} (hvalue : (wholeNumeral n).value? = some value)
    (hrest : Delimits rest) :
    Reads (value? limit (intChars n ++ rest)) (if limit.isSome then value else .null) rest := by
  have hscalar := scalar?_number limit.isSome hvalue hrest
  obtain ⟨c, cs, hchars, hc⟩ := exists_intChars n
  rw [hchars, List.cons_append] at hscalar ⊢
  exact value?_scalar (isSpace_of_number hc) (ne_of_number hc rfl) (ne_of_number hc rfl) hscalar

theorem value?_array {inner : Option Nat} (hinner : deeper? limit = some inner)
    (h : Reads (items? inner cs) items rest) :
    Reads (value? limit ('[' :: cs)) (.array items) rest := by
  obtain ⟨hrest, h⟩ := h
  rw [value?, skipSpace_eq (Text.stops_of_head rfl cs)]
  simp only [Text.unread, Text.one?, if_true, Option.bind_eq_bind, Option.bind_some,
    beq_self_eq_true, hinner, h]
  exact ⟨_, rfl⟩

theorem value?_object {inner : Option Nat} (hinner : deeper? limit = some inner)
    (h : Reads (fields? inner cs) fields rest) :
    Reads (value? limit ('\x7b' :: cs)) (.object (lastFields fields)) rest := by
  obtain ⟨hrest, h⟩ := h
  have hne : ('\x7b' == '[') = false := rfl
  rw [value?, skipSpace_eq (Text.stops_of_head rfl cs)]
  simp only [Text.unread, Text.one?, if_true, Option.bind_eq_bind, Option.bind_some,
    beq_self_eq_true, hne, Bool.false_eq_true, if_false, hinner, h]
  exact ⟨_, rfl⟩

theorem items?_close : Reads (items? limit (']' :: rest)) [] rest := by
  obtain ⟨hrest, htoken⟩ := token?_reads (c := ']') rfl rest
  rw [items?]
  simp only [Option.bind_eq_bind, htoken, Option.bind_some]
  exact ⟨_, rfl⟩

theorem items?_more (hspace : isSpace c = false) (hbracket : c ≠ ']')
    (h : Reads (moreItems? limit (c :: cs)) items rest) :
    Reads (items? limit (c :: cs)) items rest := by
  obtain ⟨hlength, htoken⟩ := token?_reads hspace cs
  rw [items?]
  simp only [Option.bind_eq_bind, htoken, Option.bind_some, beq_iff_eq, hbracket, if_false]
  exact h

theorem moreItems?_last (hitem : Reads (value? limit cs) item (']' :: rest)) :
    Reads (moreItems? limit cs) [item] rest := by
  obtain ⟨hlength, hitem⟩ := hitem
  obtain ⟨hrest, htoken⟩ := token?_reads (c := ']') rfl rest
  rw [moreItems?]
  simp only [Option.bind_eq_bind, hitem, htoken, Option.bind_some]
  exact ⟨_, rfl⟩

theorem moreItems?_next (hitem : Reads (value? limit cs) item (',' :: mid))
    (hmore : Reads (moreItems? limit mid) items rest) :
    Reads (moreItems? limit cs) (item :: items) rest := by
  obtain ⟨hlength, hitem⟩ := hitem
  obtain ⟨hmid, htoken⟩ := token?_reads (c := ',') rfl mid
  obtain ⟨hrest, hmore⟩ := hmore
  rw [moreItems?]
  simp only [Option.bind_eq_bind, hitem, htoken, hmore, Option.bind_some]
  exact ⟨_, rfl⟩

theorem fields?_close : Reads (fields? limit ('\x7d' :: rest)) [] rest := by
  obtain ⟨hrest, htoken⟩ := token?_reads (c := '\x7d') rfl rest
  rw [fields?]
  simp only [Option.bind_eq_bind, htoken, Option.bind_some]
  exact ⟨_, rfl⟩

theorem fields?_more (h : Reads (moreFields? limit ('"' :: cs)) fields rest) :
    Reads (fields? limit ('"' :: cs)) fields rest := by
  obtain ⟨hlength, htoken⟩ := token?_reads (c := '"') rfl cs
  rw [fields?]
  simp only [Option.bind_eq_bind, htoken, Option.bind_some]
  exact h

theorem moreFields?_last (hname : Reads (fieldName? limit.isSome cs) name mid)
    (hvalue : Reads (value? limit mid) value ('\x7d' :: rest)) :
    Reads (moreFields? limit cs) [(name, value)] rest := by
  obtain ⟨hmid, hname⟩ := hname
  obtain ⟨hlength, hvalue⟩ := hvalue
  obtain ⟨hrest, htoken⟩ := token?_reads (c := '\x7d') rfl rest
  rw [moreFields?]
  simp only [Option.bind_eq_bind, hname, hvalue, htoken, Option.bind_some]
  exact ⟨_, rfl⟩

theorem moreFields?_next {next : List Char} (hname : Reads (fieldName? limit.isSome cs) name mid)
    (hvalue : Reads (value? limit mid) value (',' :: next))
    (hmore : Reads (moreFields? limit next) fields rest) :
    Reads (moreFields? limit cs) ((name, value) :: fields) rest := by
  obtain ⟨hmid, hname⟩ := hname
  obtain ⟨hlength, hvalue⟩ := hvalue
  obtain ⟨hnext, htoken⟩ := token?_reads (c := ',') rfl next
  obtain ⟨hrest, hmore⟩ := hmore
  rw [moreFields?]
  simp only [Option.bind_eq_bind, hname, hvalue, htoken, hmore, Option.bind_some]
  exact ⟨_, rfl⟩

end Values

section Recovery

variable {limit : Option Nat} {depth : Nat} {items : List Json} {fields : List (String × Json)}

/-- Whether values of some depth may be read with a limit. -/
def Allows (limit : Option Nat) (depth : Nat) : Prop := ∀ n ∈ limit, depth < n

theorem Allows.deeper? (h : Allows limit (depth + 1)) :
    ∃ inner, deeper? limit = some inner ∧ inner.isSome = limit.isSome ∧ Allows inner depth := by
  cases limit with
  | none => exact ⟨none, rfl, rfl, fun n hn => nomatch hn⟩
  | some n =>
    have hn : depth + 1 < n := h n rfl
    obtain ⟨m, rfl⟩ : ∃ m, n = m + 2 := ⟨n - 2, by omega⟩
    refine ⟨some (m + 1), rfl, rfl, ?_⟩
    rintro k hk
    cases hk
    omega

/-- Reading with a limit gets past the text of a value, and gives the value where it is kept. -/
def Recovers (limit : Option Nat) (json : Json) : Prop :=
  ∀ rest, Delimits rest →
    ∃ value, Reads (value? limit (json.chars ++ rest)) value rest ∧ (limit.isSome → value = json)

/-- How the text of a value starts. -/
theorem Plain.exists_chars {json : Json} (h : Plain depth json) :
    ∃ c cs, json.chars = c :: cs ∧ isSpace c = false ∧ c ≠ ']' := by
  cases h with
  | null => exact ⟨'n', _, rfl, rfl, by decide⟩
  | bool _ value =>
    cases value with
    | false => exact ⟨'f', _, rfl, rfl, by decide⟩
    | true => exact ⟨'t', _, rfl, rfl, by decide⟩
  | @int _ n =>
    obtain ⟨c, cs, hchars, hc⟩ := exists_intChars n
    exact ⟨c, cs, hchars, isSpace_of_number hc, ne_of_number hc rfl⟩
  | string => exact ⟨'"', _, rfl, rfl, by decide⟩
  | array => exact ⟨'[', _, rfl, rfl, by decide⟩
  | object => exact ⟨'\x7b', _, rfl, rfl, by decide⟩

theorem exists_itemChars {item : Json} (h : Plain depth item) (items : List Json) :
    ∃ c cs, itemChars (item :: items) = c :: cs ∧ isSpace c = false ∧ c ≠ ']' := by
  obtain ⟨c, cs, hchars, hspace, hbracket⟩ := h.exists_chars
  cases items with
  | nil => exact ⟨c, cs, hchars, hspace, hbracket⟩
  | cons next items => exact ⟨c, _, by rw [itemChars, hchars]; rfl, hspace, hbracket⟩

theorem exists_fieldChars (field : String × Json) (fields : List (String × Json)) :
    ∃ cs, fieldChars (field :: fields) = '"' :: cs := by
  cases fields with
  | nil => exact ⟨_, rfl⟩
  | cons next fields => exact ⟨_, rfl⟩

theorem delimits_cons {c : Char} (h : (c.isDigit || c == '.' || c == 'e' || c == 'E') = false)
    (cs : List Char) : Delimits (c :: cs) :=
  Text.stops_of_head h cs

theorem moreItems?_reads (item : Json) (hitem : Recovers limit item)
    (hitems : ∀ item ∈ items, Recovers limit item) (rest : List Char) :
    ∃ values, Reads (moreItems? limit (itemChars (item :: items) ++ ']' :: rest)) values rest ∧
      (limit.isSome → values = item :: items) := by
  induction items generalizing item with
  | nil =>
    obtain ⟨value, hread, hkept⟩ := hitem (']' :: rest) (delimits_cons rfl rest)
    exact ⟨[value], moreItems?_last hread, fun h => by rw [hkept h]⟩
  | cons next items ih =>
    obtain ⟨value, hread, hkept⟩ := hitem (',' :: (itemChars (next :: items) ++ ']' :: rest))
      (delimits_cons rfl _)
    obtain ⟨hnext, hitems⟩ := List.forall_mem_cons.mp hitems
    obtain ⟨values, hmore, hvalues⟩ := ih next hnext hitems
    rw [itemChars, List.append_assoc, List.cons_append]
    exact ⟨value :: values, moreItems?_next hread hmore, fun h => by rw [hkept h, hvalues h]⟩

theorem moreFields?_reads (field : String × Json) (hfield : Recovers limit field.2)
    (hfields : ∀ field ∈ fields, Recovers limit field.2) (rest : List Char) :
    ∃ values, Reads (moreFields? limit (fieldChars (field :: fields) ++ '\x7d' :: rest)) values rest ∧
      (limit.isSome → values = field :: fields) := by
  induction fields generalizing field with
  | nil =>
    obtain ⟨value, hread, hkept⟩ := hfield ('\x7d' :: rest) (delimits_cons rfl rest)
    rw [fieldChars, List.append_assoc, List.cons_append]
    exact ⟨[(field.1, value)], moreFields?_last (fieldName?_reads field.1) hread,
      fun h => by rw [hkept h]⟩
  | cons next fields ih =>
    obtain ⟨value, hread, hkept⟩ := hfield (',' :: (fieldChars (next :: fields) ++ '\x7d' :: rest))
      (delimits_cons rfl _)
    obtain ⟨hnext, hfields⟩ := List.forall_mem_cons.mp hfields
    obtain ⟨values, hmore, hvalues⟩ := ih next hnext hfields
    rw [fieldChars, List.append_assoc, List.append_assoc, List.cons_append, List.cons_append]
    exact ⟨(field.1, value) :: values, moreFields?_next (fieldName?_reads field.1) hread hmore,
      fun h => by rw [hkept h, hvalues h]⟩

theorem items?_reads (hitems : ∀ item ∈ items, Plain depth item)
    (hrecovers : ∀ item ∈ items, Recovers limit item) (rest : List Char) :
    ∃ values, Reads (items? limit (itemChars items ++ ']' :: rest)) values rest ∧
      (limit.isSome → values = items) := by
  cases items with
  | nil => exact ⟨[], items?_close, fun _ => rfl⟩
  | cons item items =>
    obtain ⟨hitem, hrecovers⟩ := List.forall_mem_cons.mp hrecovers
    obtain ⟨values, hread, hvalues⟩ := moreItems?_reads item hitem hrecovers rest
    obtain ⟨c, cs, hchars, hspace, hbracket⟩ := exists_itemChars (hitems item List.mem_cons_self) items
    rw [hchars, List.cons_append] at hread ⊢
    exact ⟨values, items?_more hspace hbracket hread, hvalues⟩

theorem fields?_reads (hrecovers : ∀ field ∈ fields, Recovers limit field.2) (rest : List Char) :
    ∃ values, Reads (fields? limit (fieldChars fields ++ '\x7d' :: rest)) values rest ∧
      (limit.isSome → values = fields) := by
  cases fields with
  | nil => exact ⟨[], fields?_close, fun _ => rfl⟩
  | cons field fields =>
    obtain ⟨hfield, hrecovers⟩ := List.forall_mem_cons.mp hrecovers
    obtain ⟨values, hread, hvalues⟩ := moreFields?_reads field hfield hrecovers rest
    obtain ⟨cs, hchars⟩ := exists_fieldChars field fields
    rw [hchars, List.cons_append] at hread ⊢
    exact ⟨values, fields?_more hread, hvalues⟩

theorem lastFields_eq (h : (fields.map Prod.fst).Nodup) : lastFields fields = fields := by
  induction fields with
  | nil => rfl
  | cons field fields ih =>
    rw [List.map_cons, List.nodup_cons] at h
    have hnone : fields.any (·.1 == field.1) = false := by
      rw [List.any_eq_false]
      intro other hother
      exact fun heq => h.1 (beq_iff_eq.mp heq ▸ List.mem_map_of_mem hother)
    rw [lastFields, hnone, if_neg Bool.false_ne_true, ih h.2]

theorem chars_array_append (items : List Json) (rest : List Char) :
    (Json.array items).chars ++ rest = '[' :: (itemChars items ++ ']' :: rest) := by
  rw [chars, List.cons_append, List.cons_append, List.append_assoc]
  rfl

theorem chars_object_append (fields : List (String × Json)) (rest : List Char) :
    (Json.object fields).chars ++ rest = '\x7b' :: (fieldChars fields ++ '\x7d' :: rest) := by
  rw [chars, List.cons_append, List.cons_append, List.append_assoc]
  rfl

/-- The text of a value is read as that value. -/
theorem Plain.recovers {json : Json} (h : Plain depth json) :
    ∀ {limit}, Allows limit depth → Recovers limit json := by
  induction h with
  | null depth =>
    intro limit _ rest _
    exact ⟨.null, value?_scalar rfl (by decide) (by decide) ⟨_, rfl⟩, fun _ => rfl⟩
  | bool depth value =>
    intro limit _ rest _
    cases value with
    | false => exact ⟨.bool false, value?_scalar rfl (by decide) (by decide) ⟨_, rfl⟩, fun _ => rfl⟩
    | true => exact ⟨.bool true, value?_scalar rfl (by decide) (by decide) ⟨_, rfl⟩, fun _ => rfl⟩
  | @int depth n hlow hhigh =>
    intro limit _ rest hrest
    exact ⟨_, value?_number (value?_wholeNumeral hlow hhigh) hrest, fun h => if_pos h⟩
  | string depth s =>
    intro limit _ rest _
    exact ⟨.string s, value?_scalar rfl (by decide) (by decide) (scalar?_string s), fun _ => rfl⟩
  | @array depth items hitems ih =>
    intro limit hallows rest _
    obtain ⟨inner, hinner, hkept, hallows⟩ := hallows.deeper?
    obtain ⟨values, hread, hvalues⟩ :=
      items?_reads hitems (fun item hitem => ih item hitem hallows) rest
    rw [chars_array_append]
    exact ⟨.array values, value?_array hinner hread, fun h => by rw [hvalues (hkept.trans h)]⟩
  | @object depth fields hnames hvalues ih =>
    intro limit hallows rest _
    obtain ⟨inner, hinner, hkept, hallows⟩ := hallows.deeper?
    obtain ⟨values, hread, hfields⟩ :=
      fields?_reads (fun field hfield => ih field hfield hallows) rest
    rw [chars_object_append]
    exact ⟨.object (lastFields values), value?_object hinner hread, fun h => by
      rw [hfields (hkept.trans h), lastFields_eq hnames]⟩

end Recovery

end TableCalc.Json
