import TableCalc.Server.Request
import TableCalc.Proofs.Json.Reader

/-!
What requests are read from. The text of a value is read as the request that the value is, if it is
one, whatever other fields it has and however its fields are ordered.
-/

namespace TableCalc.Server

open Text (Reads)
open Json (Allows Plain Recovers fieldChars fieldName?_reads token?_reads)

theorem orNull_ne_null (json : Option Json) : orNull json ≠ some .null := by
  fun_cases orNull json with
  | case1 => simp
  | case2 _ h => exact h

namespace Request

variable {request : Request}

/-! An id that is `null` is none, however a request is written. -/

theorem id_ne_null_of_ofParts? {version id method params : Option Json}
    (h : ofParts? version id method params = some request) : request.id ≠ some .null := by
  simp only [ofParts?, Option.bind_eq_bind, Option.bind_eq_some_iff, Option.pure_def,
    Option.some.injEq] at h
  obtain ⟨_, _, _, _, _, _, _, _, rfl⟩ := h
  exact orNull_ne_null id

theorem id_ne_null_of_ofFields? {fields : List (String × Json)}
    (h : ofFields? fields = some request) : request.id ≠ some .null := by
  simp only [ofFields?, Option.bind_eq_bind, Option.bind_eq_some_iff] at h
  obtain ⟨version, -, id, -, method, -, params, -, hparts⟩ := h
  exact id_ne_null_of_ofParts? hparts

theorem id_ne_null_of_ofItems? {items : List Json} (h : ofItems? items = some request) :
    request.id ≠ some .null := by
  fun_cases ofItems? items with
  | case1 => exact id_ne_null_of_ofParts? h
  | case2 => exact id_ne_null_of_ofParts? h
  | case3 => simp_all [ofItems?]

theorem id_ne_null {cs : List Char} (h : read? cs = some request) : request.id ≠ some .null := by
  simp only [read?, Option.bind_eq_bind, Option.bind_eq_some_iff] at h
  obtain ⟨⟨c, afterFirst, _⟩, -, h⟩ := h
  dsimp only at h
  split at h
  · simp only [Option.bind_eq_some_iff, Option.ite_none_right_eq_some] at h
    obtain ⟨_, -, -, hfields⟩ := h
    exact id_ne_null_of_ofFields? hfields
  · simp only [Option.bind_eq_some_iff, Option.ite_none_right_eq_some] at h
    obtain ⟨-, _, -, -, hitems⟩ := h
    exact id_ne_null_of_ofItems? hitems

/-- The request that a value is: an object with a version and a method, which are strings, and perhaps
an id and parameters, or an array of these in order. -/
def ofJson? : Json → Option Request
  | .object fields =>
      ofParts? (fields.lookup "jsonrpc") (fields.lookup "id") (fields.lookup "method")
        (fields.lookup "params")
  | .array items => ofItems? items
  | _ => none

end Request

section Fields

variable {cs mid rest : List Char} {name : String} {value : Json} {fields : List (String × Json)}

/-- The limit for the value of a field. -/
def fieldLimit (name : String) : Option Nat :=
  if requestFields.contains name then some valueDepth else none

theorem allows_fieldLimit (name : String) : Allows (fieldLimit name) (valueDepth - 1) := by
  intro n hn
  rw [fieldLimit, Option.mem_def, Option.ite_none_right_eq_some] at hn
  cases hn.2
  decide

theorem readFields?_last (hname : Reads (Json.fieldName? true cs) name mid)
    (hvalue : Reads (Json.value? (fieldLimit name) mid) value ('\x7d' :: rest)) :
    Reads (readFields? cs) [(name, value)] rest := by
  obtain ⟨hmid, hname⟩ := hname
  obtain ⟨hlength, hvalue⟩ := hvalue
  obtain ⟨hrest, htoken⟩ := token?_reads (c := '\x7d') rfl rest
  rw [fieldLimit] at hvalue
  rw [readFields?]
  simp only [Option.bind_eq_bind, hname, Option.bind_some, hvalue, htoken]
  exact ⟨_, rfl⟩

theorem readFields?_next {next : List Char} (hname : Reads (Json.fieldName? true cs) name mid)
    (hvalue : Reads (Json.value? (fieldLimit name) mid) value (',' :: next))
    (hmore : Reads (readFields? next) fields rest) :
    Reads (readFields? cs) ((name, value) :: fields) rest := by
  obtain ⟨hmid, hname⟩ := hname
  obtain ⟨hlength, hvalue⟩ := hvalue
  obtain ⟨hnext, htoken⟩ := token?_reads (c := ',') rfl next
  obtain ⟨hrest, hmore⟩ := hmore
  rw [fieldLimit] at hvalue
  rw [readFields?]
  simp only [Option.bind_eq_bind, hname, Option.bind_some, hvalue, htoken, hmore]
  exact ⟨_, rfl⟩

/-- Whether a field was read as another one, up to the value of a field that no request has. -/
def ReadAs (field read : String × Json) : Prop :=
  read.1 = field.1 ∧ (field.1 ∈ requestFields → read.2 = field.2)

theorem readAs_of_recovers (hkept : (fieldLimit name).isSome → value = json) :
    ReadAs (name, json) (name, value) := by
  refine ⟨rfl, fun hname => hkept ?_⟩
  rw [fieldLimit, if_pos (List.contains_iff_mem.mpr hname)]
  rfl

theorem readFields?_reads (field : String × Json) (hfield : Recovers (fieldLimit field.1) field.2)
    (hfields : ∀ field ∈ fields, Recovers (fieldLimit field.1) field.2) (rest : List Char) :
    ∃ read, Reads (readFields? (fieldChars (field :: fields) ++ '\x7d' :: rest)) read rest ∧
      List.Forall₂ ReadAs (field :: fields) read := by
  induction fields generalizing field with
  | nil =>
    obtain ⟨value, hread, hkept⟩ := hfield ('\x7d' :: rest) (Json.delimits_cons rfl rest)
    rw [fieldChars, List.append_assoc, List.cons_append]
    exact ⟨[(field.1, value)], readFields?_last (fieldName?_reads field.1) hread,
      .cons (readAs_of_recovers hkept) .nil⟩
  | cons next fields ih =>
    obtain ⟨value, hread, hkept⟩ := hfield (',' :: (fieldChars (next :: fields) ++ '\x7d' :: rest))
      (Json.delimits_cons rfl _)
    obtain ⟨hnext, hfields⟩ := List.forall_mem_cons.mp hfields
    obtain ⟨read, hmore, hall⟩ := ih next hnext hfields
    rw [fieldChars, List.append_assoc, List.append_assoc, List.cons_append, List.cons_append]
    exact ⟨(field.1, value) :: read, readFields?_next (fieldName?_reads field.1) hread hmore,
      .cons (readAs_of_recovers hkept) hall⟩

theorem map_fst_of_readAs {read : List (String × Json)} (h : List.Forall₂ ReadAs fields read) :
    read.map Prod.fst = fields.map Prod.fst := by
  induction h with
  | nil => rfl
  | cons hfield _ ih => rw [List.map_cons, List.map_cons, hfield.1, ih]

/-- A field that a request may have is found where the names of the fields differ. -/
theorem once?_eq_lookup {read : List (String × Json)} (hread : List.Forall₂ ReadAs fields read)
    (hnames : (fields.map Prod.fst).Nodup) (hname : name ∈ requestFields) :
    once? read name = some (fields.lookup name) := by
  induction hread with
  | nil => rfl
  | @cons field value fields values hfield hfields ih =>
    obtain ⟨key, json⟩ := field
    obtain ⟨copy, value⟩ := value
    obtain ⟨hcopy, hkept⟩ := hfield
    obtain rfl : key = copy := hcopy.symm
    obtain ⟨hkey, hnames⟩ := List.nodup_cons.mp hnames
    rcases eq_or_ne name key with rfl | hother
    · have hothers : values.filter (·.1 == name) = [] := by
        rw [List.filter_eq_nil_iff]
        intro other hother heq
        rw [← map_fst_of_readAs hfields] at hkey
        exact hkey (List.mem_map.mpr ⟨other, hother, beq_iff_eq.mp heq⟩)
      obtain rfl : value = json := hkept hname
      simp [once?, hothers]
    · have hskip : once? ((key, value) :: values) name = once? values name := by
        simp [once?, hother.symm]
      rw [hskip, ih hnames, List.lookup_cons, beq_false_of_ne hother]

end Fields

namespace Request

theorem read?_eq_none {c : Char} (hspace : Json.isSpace c = false) (hbrace : c ≠ '\x7b')
    (hbracket : c ≠ '[') (cs : List Char) : read? (c :: cs) = none := by
  obtain ⟨_, htoken⟩ := token?_reads hspace cs
  simp only [read?, Option.bind_eq_bind, htoken, Option.bind_some, beq_iff_eq, hbrace, hbracket,
    if_false]

theorem read?_object {cs : List Char} {fields : List (String × Json)}
    (h : Reads (readFields? cs) fields []) : read? ('\x7b' :: cs) = ofFields? fields := by
  obtain ⟨_, htoken⟩ := token?_reads (c := '\x7b') rfl cs
  obtain ⟨_, h⟩ := h
  simp only [read?, Option.bind_eq_bind, htoken, Option.bind_some, beq_self_eq_true, h,
    List.all_nil, if_true]

theorem read?_emptyObject : read? ['\x7b', '\x7d'] = none := by
  have hfields : readFields? ['\x7d'] = none := by
    rw [readFields?]
    rfl
  obtain ⟨_, htoken⟩ := token?_reads (c := '\x7b') rfl ['\x7d']
  simp only [read?, Option.bind_eq_bind, htoken, Option.bind_some, beq_self_eq_true, hfields,
    Option.bind_none, if_true]

theorem read?_array {cs : List Char} {items : List Json}
    (h : Reads (Json.items? (some valueDepth) cs) items []) : read? ('[' :: cs) = ofItems? items := by
  have hne : ('[' == '\x7b') = false := rfl
  obtain ⟨_, htoken⟩ := token?_reads (c := '[') rfl cs
  obtain ⟨_, h⟩ := h
  simp only [read?, Option.bind_eq_bind, htoken, Option.bind_some, hne, Bool.false_eq_true,
    beq_self_eq_true, h, List.all_nil, if_true, if_false]

theorem ofFields?_eq {fields read : List (String × Json)} (hread : List.Forall₂ ReadAs fields read)
    (hnames : (fields.map Prod.fst).Nodup) : ofFields? read = ofJson? (.object fields) := by
  have honce (name : String) (hname : name ∈ requestFields) :
      once? read name = some (fields.lookup name) := once?_eq_lookup hread hnames hname
  simp only [ofFields?, honce "jsonrpc" (by decide), honce "id" (by decide), honce "method" (by decide),
    honce "params" (by decide), Option.bind_eq_bind, Option.bind_some, ofJson?]

/-- The text of a value is read as the request that the value is. -/
theorem read?_chars {json : Json} (h : Plain valueDepth json) : read? json.chars = ofJson? json := by
  cases h with
  | null => exact read?_eq_none rfl (by decide) (by decide) _
  | bool _ value =>
    cases value with
    | false => exact read?_eq_none rfl (by decide) (by decide) _
    | true => exact read?_eq_none rfl (by decide) (by decide) _
  | @int _ n =>
    obtain ⟨c, cs, hchars, hc⟩ := Json.exists_intChars n
    have hne {d : Char} (hd : (d.isDigit || d == '-') = false) : c ≠ d :=
      Text.ne_of_class (p := fun c => c.isDigit || c == '-') hc hd
    rw [Json.chars, hchars]
    exact read?_eq_none (Json.isSpace_of_number hc) (hne rfl) (hne rfl) cs
  | string => exact read?_eq_none rfl (by decide) (by decide) _
  | @array depth items hitems =>
    have hallows : Allows (some valueDepth) (valueDepth - 1) := by
      rintro n hn
      cases hn
      decide
    obtain ⟨read, hread, hkept⟩ :=
      Json.items?_reads hitems (fun item hitem => (hitems item hitem).recovers hallows) []
    rw [← List.append_nil (Json.chars _), Json.chars_array_append, read?_array hread, hkept rfl,
      ofJson?]
  | @object depth fields hnames hvalues =>
    rw [← List.append_nil (Json.chars _), Json.chars_object_append]
    cases fields with
    | nil =>
      rw [fieldChars, List.nil_append, read?_emptyObject]
      rfl
    | cons field fields =>
      have hrecovers : ∀ other ∈ field :: fields, Recovers (fieldLimit other.1) other.2 :=
        fun other hother => (hvalues other hother).recovers (allows_fieldLimit other.1)
      obtain ⟨hfield, hfields⟩ := List.forall_mem_cons.mp hrecovers
      obtain ⟨read, hread, hall⟩ := readFields?_reads field hfield hfields []
      rw [read?_object hread, ofFields?_eq hall hnames]

end Request

end TableCalc.Server
