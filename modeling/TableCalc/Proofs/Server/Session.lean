import TableCalc.Server.Session
import TableCalc.Proofs.Json.Printer
import TableCalc.Proofs.Server.Request

/-!
Sessions with the server. A line either gets one response or none, which can be told from the line
alone, and nothing is kept from one line to the next.
-/

namespace TableCalc.Server

open Text (Reads)

variable {wording : Wording} {engine : Engine} {library : Library} {line : String}

@[simp]
theorem Reply.field?_id (reply : Reply) : reply.toJson.field? "id" = reply.id := by
  obtain ⟨id, outcome⟩ := reply
  cases id <;> cases outcome <;> rfl

@[simp]
theorem Reply.field?_result (reply : Reply) :
    reply.toJson.field? "result" = reply.outcome.toOption := by
  obtain ⟨id, outcome⟩ := reply
  cases id <;> cases outcome <;> rfl

@[simp]
theorem Reply.field?_error (reply : Reply) :
    reply.toJson.field? "error" =
      match reply.outcome with
      | .ok _ => none
      | .error fault => some fault.toJson := by
  obtain ⟨id, outcome⟩ := reply
  cases id <;> cases outcome <;> rfl

/-- Whether a line is one to respond to: it is not blank, and it is no request or a request with an
id. -/
def Awaits (line : String) : Prop :=
  Text.isBlankText line = false ∧
    ∀ request ∈ Request.read? (Text.trim line.toList), request.id.isSome

instance : DecidablePred Awaits := fun _ =>
  inferInstanceAs (Decidable (_ ∧ _))

theorem isBlankText_eq (line : String) :
    Text.isBlankText line = (Text.trim line.toList).isEmpty := by
  rw [Bool.eq_iff_iff, List.isEmpty_iff, Text.trim_eq_nil_iff, Text.isBlankText, List.all_eq_true]

theorem reply?_isSome_iff (wording : Wording) (engine : Engine) (library : Library) (line : String) :
    (reply? wording engine library line).isSome ↔ Awaits line := by
  simp only [reply?, Awaits, isBlankText_eq]
  cases (Text.trim line.toList).isEmpty with
  | true => simp
  | false => cases Request.read? (Text.trim line.toList) <;> simp

/-- The fault of a line that is no request. -/
def unreadable (wording : Wording) (line : String) : Fault :=
  .unreadable (wording.request (Text.trim line.toList))

theorem reply?_cases {reply : Reply} (h : reply? wording engine library line = some reply) :
    (Request.read? (Text.trim line.toList) = none ∧
      reply = ⟨none, .error (unreadable wording line)⟩) ∨
      ∃ request, Request.read? (Text.trim line.toList) = some request ∧ request.id.isSome ∧
        reply = ⟨request.id, outcome wording engine library request⟩ := by
  simp only [reply?, Option.ite_none_left_eq_some] at h
  obtain ⟨-, h⟩ := h
  cases hread : Request.read? (Text.trim line.toList) with
  | none =>
    simp only [hread, Option.some.injEq] at h
    exact .inl ⟨rfl, h.symm⟩
  | some request =>
    simp only [hread, Option.map_eq_some_iff] at h
    obtain ⟨id, hid, rfl⟩ := h
    exact .inr ⟨request, rfl, by simp [hid], by rw [hid]⟩

section Lines

/-! Lines are octets. Those before the first line that is no text are the ones that are served. -/

variable {room : Nat} {before after lines : List ByteArray}

/-- Whether a line is a text. -/
def IsText (line : ByteArray) : Prop := (String.fromUTF8? line).isSome

instance : DecidablePred IsText := fun line =>
  inferInstanceAs (Decidable ((String.fromUTF8? line).isSome = true))

/-- The texts of the lines up to the first one that is none. -/
def texts : List ByteArray → List String
  | [] => []
  | line :: lines =>
      match String.fromUTF8? line with
      | none => []
      | some text => text :: texts lines

theorem fromUTF8?_toUTF8 (text : String) : String.fromUTF8? text.toUTF8 = some text :=
  dif_pos text.isValidUTF8

theorem texts_toUTF8 (line : String) (lines : List ByteArray) :
    texts (line.toUTF8 :: lines) = line :: texts lines := by
  rw [texts, fromUTF8?_toUTF8]

theorem texts_append (h : ∀ line ∈ before, IsText line) :
    texts (before ++ after) = texts before ++ texts after := by
  induction before with
  | nil => rfl
  | cons line before ih =>
    obtain ⟨hline, h⟩ := List.forall_mem_cons.mp h
    obtain ⟨text, htext⟩ := Option.isSome_iff_exists.mp hline
    simp only [List.cons_append, texts, htext, ih h]

theorem texts_append_of_not (h : ¬ ∀ line ∈ before, IsText line) :
    texts (before ++ after) = texts before := by
  induction before with
  | nil => exact absurd (List.forall_mem_nil _) h
  | cons line before ih =>
    cases hline : String.fromUTF8? line with
    | none => simp only [List.cons_append, texts, hline]
    | some text =>
      have htext : IsText line := Option.isSome_of_eq_some hline
      have hrest : ¬ ∀ line ∈ before, IsText line := fun hall =>
        h (List.forall_mem_cons.mpr ⟨htext, hall⟩)
      simp only [List.cons_append, texts, hline, ih hrest]

/-- The replies of a session are those to its texts, as far as there is room. -/
theorem session_eq (wording : Wording) (engine : Engine) (library : Library) (room : Nat)
    (lines : List ByteArray) :
    session wording engine library room lines =
      ((texts lines).filterMap (reply? wording engine library)).take room := by
  induction lines generalizing room with
  | nil => rw [session, texts, List.filterMap_nil, List.take_nil]
  | cons line lines ih =>
    rw [session, turn, texts]
    cases String.fromUTF8? line with
    | none => rw [List.filterMap_nil, List.take_nil]
    | some text =>
      cases hreply : reply? wording engine library text with
      | none =>
        rw [List.filterMap_cons_none hreply, ← ih]
        simp [hreply]
      | some reply =>
        rw [List.filterMap_cons_some hreply]
        cases room with
        | zero => simp [hreply]
        | succ room =>
          rw [List.take_succ_cons, ← ih]
          simp [hreply]

/-- Lines that are texts have the replies that each of them has. -/
theorem replies_eq (engine : Engine) (library : Library) (lines : List String) :
    replies engine library lines = lines.filterMap (reply? .brief engine library) := by
  have htexts : texts (lines.map String.toUTF8) = lines := by
    induction lines with
    | nil => rfl
    | cons line lines ih => rw [List.map_cons, texts_toUTF8, ih]
  rw [replies, session_eq, htexts]
  exact List.take_of_length_le (List.length_filterMap_le _ _)

end Lines

section Responses

variable {room : Nat} {before after lines : List ByteArray}

/-- What the server responds to the lines of a session, as far as there is room. -/
def responses (wording : Wording) (engine : Engine) (library : Library) (room : Nat)
    (lines : List ByteArray) : List Json :=
  (session wording engine library room lines).map Reply.toJson

/-- What the server writes in a session: each response on a line of its own. -/
def transcript (wording : Wording) (engine : Engine) (library : Library) (room : Nat)
    (lines : List ByteArray) : List Char :=
  (responses wording engine library room lines).flatMap fun response =>
    response.compact.toList ++ ['\n']

/-- The response to a line, if it has one. -/
def response? (wording : Wording) (engine : Engine) (library : Library) (line : String) :
    Option Json :=
  (reply? wording engine library line).map Reply.toJson

theorem responses_eq (wording : Wording) (engine : Engine) (library : Library) (room : Nat)
    (lines : List ByteArray) :
    responses wording engine library room lines =
      ((texts lines).filterMap (response? wording engine library)).take room := by
  rw [responses, session_eq, List.map_take, List.map_filterMap]
  rfl

/-- What the response to a line has to be. -/
structure Answers (wording : Wording) (engine : Engine) (library : Library) (line : String)
    (response : Json) : Prop where
  /-- The line has this response wherever it stands, as it has it in a session of its own. -/
  alone : responses wording engine library 1 [line.toUTF8] = [response]
  /-- The response to a request echoes its id. -/
  echoes : ∀ request ∈ Request.read? (Text.trim line.toList), response.field? "id" = request.id
  id_ne_null : response.field? "id" ≠ some .null
  /-- The response to what is no request says so, and to no one. -/
  unreadable : Request.read? (Text.trim line.toList) = none →
    response.field? "id" = none ∧
      response.field? "error" = some (unreadable wording line).toJson
  /-- There is either a result or an error. -/
  exclusive : (response.field? "result").isSome ≠ (response.field? "error").isSome

theorem answers_of_reply? {reply : Reply} (h : reply? wording engine library line = some reply) :
    Answers wording engine library line reply.toJson := by
  have halone : responses wording engine library 1 [line.toUTF8] = [reply.toJson] := by
    rw [responses_eq, texts_toUTF8]
    simp [texts, response?, h]
  have hexclusive : (reply.toJson.field? "result").isSome ≠
      (reply.toJson.field? "error").isSome := by
    rw [Reply.field?_result, Reply.field?_error]
    cases reply.outcome <;> simp [Except.toOption]
  rcases reply?_cases h with ⟨hread, rfl⟩ | ⟨request, hread, hid, rfl⟩
  · exact {
      alone := halone
      echoes := fun request hrequest => by simp [hread] at hrequest
      id_ne_null := by simp
      unreadable := fun _ => ⟨Reply.field?_id _, Reply.field?_error _⟩
      exclusive := hexclusive }
  · exact {
      alone := halone
      echoes := fun other hother => by
        obtain rfl : request = other := Option.some.inj (hread.symm.trans hother)
        exact Reply.field?_id _
      id_ne_null := by simpa using Request.id_ne_null hread
      unreadable := fun hnone => by simp [hread] at hnone
      exclusive := hexclusive }

/-- The responses are to the lines that await one, in the order of the lines. -/
theorem forall₂_answers (wording : Wording) (engine : Engine) (library : Library)
    (lines : List String) :
    List.Forall₂ (Answers wording engine library) (lines.filter Awaits)
      (lines.filterMap (response? wording engine library)) := by
  induction lines with
  | nil => exact .nil
  | cons line rest ih =>
    cases h : reply? wording engine library line with
    | none =>
      have hsilent : ¬ Awaits line := by
        rw [← reply?_isSome_iff wording engine library, h]
        exact Bool.false_ne_true
      have hnone : response? wording engine library line = none := by rw [response?, h]; rfl
      rwa [List.filter_cons_of_neg (by simpa using hsilent), List.filterMap_cons_none hnone]
    | some reply =>
      have hawaits : Awaits line :=
        (reply?_isSome_iff wording engine library line).mp (Option.isSome_of_eq_some h)
      have hsome : response? wording engine library line = some reply.toJson := by
        rw [response?, h]
        rfl
      rw [List.filter_cons_of_pos (by simpa using hawaits), List.filterMap_cons_some hsome]
      exact .cons (answers_of_reply? h) ih

/-- A session that is interrupted behind texts and taken up again gives the same responses. -/
theorem responses_append (h : ∀ line ∈ before, IsText line) :
    responses wording engine library room (before ++ after) =
      responses wording engine library room before ++
        responses wording engine library
          (room - (responses wording engine library room before).length) after := by
  simp only [responses_eq, texts_append h, List.filterMap_append, List.take_append, List.length_take]
  congr 2
  omega

/-- Behind a line that is no text there are no responses. -/
theorem responses_append_of_not (h : ¬ ∀ line ∈ before, IsText line) :
    responses wording engine library room (before ++ after) =
      responses wording engine library room before := by
  rw [responses_eq, texts_append_of_not h, responses_eq]

/-- A response never takes more than one line, so a reader of lines gets the responses apart. -/
theorem lines_transcript (wording : Wording) (engine : Engine) (library : Library) (room : Nat)
    (lines : List ByteArray) :
    Text.lines (transcript wording engine library room lines) =
      (responses wording engine library room lines).map Json.chars := by
  unfold transcript
  induction responses wording engine library room lines with
  | nil => rfl
  | cons response rest ih =>
    have hline : Text.IsLine response.chars := response.printable_chars.isLine
    rw [List.flatMap_cons, List.map_cons, Json.compact, String.toList_ofList, List.append_assoc,
      List.singleton_append, Text.lines_append_newline hline, ih]

end Responses

section Pings

/-! Requests for a pong, and a session with some of them. -/

def pingFields (id : Option Json) : List (String × Json) :=
  [("jsonrpc", .string "2.0"), ("method", .string "ping")] ++ (id.map fun id => ("id", id)).toList

/-- A request for a pong on a line of its own. -/
def pingLine (id : Option Json) : String := (Json.object (pingFields id)).compact ++ "\n"

theorem trim_pingLine (id : Option Json) :
    Text.trim (pingLine id).toList = (Json.object (pingFields id)).chars := by
  have hfeed : ∀ c ∈ ['\n'], Text.isBlank c = true := List.forall_mem_singleton.mpr rfl
  have hopen : Text.IsTrimmed ['\x7b'] := Text.isTrimmed_of_visible
    (List.forall_mem_singleton.mpr rfl)
  have hclose : Text.IsTrimmed ['\x7d'] := Text.isTrimmed_of_visible
    (List.forall_mem_singleton.mpr rfl)
  have htrimmed : Text.IsTrimmed (Json.object (pingFields id)).chars := by
    rw [Json.chars]
    exact hopen.around hclose (by decide) (by decide) (Json.fieldChars (pingFields id))
  rw [pingLine, String.toList_append, Json.compact, String.toList_ofList]
  exact Text.trim_eq_of_parts htrimmed (List.forall_mem_nil _) hfeed

theorem plain_ping {id : Option Json} (h : ∀ json ∈ id, Json.Plain 126 json) :
    Json.Plain valueDepth (.object (pingFields id)) := by
  cases id with
  | none => exact .object (by decide) (by simp [pingFields, Json.Plain.string])
  | some json =>
    refine .object (by simp [pingFields]) ?_
    simpa [pingFields, Json.Plain.string] using h

theorem plain_seven : ∀ json ∈ some (Json.int 7), Json.Plain 126 json := by
  simpa using .int 126 (by decide) (by decide)

theorem read?_pingLine {id : Option Json} (h : ∀ json ∈ id, Json.Plain 126 json) :
    Request.read? (Text.trim (pingLine id).toList) = some ⟨orNull id, "ping", none⟩ := by
  rw [trim_pingLine, Request.read?_chars (plain_ping h)]
  cases id <;> rfl

theorem isBlankText_pingLine (id : Option Json) : Text.isBlankText (pingLine id) = false := by
  rw [isBlankText_eq, trim_pingLine, Json.chars]
  rfl

theorem awaits_pingLine_iff {id : Option Json} (h : ∀ json ∈ id, Json.Plain 126 json) :
    Awaits (pingLine id) ↔ (orNull id).isSome := by
  rw [Awaits, read?_pingLine h]
  simp [isBlankText_pingLine]

theorem reply?_pingLine {id json : Option Json}
    (h : Request.read? (Text.trim (pingLine id).toList) = some ⟨json, "ping", none⟩) :
    reply? wording engine library (pingLine id) = json.map fun id => ⟨some id, .ok (.object [])⟩ := by
  have hline : (Text.trim (pingLine id).toList).isEmpty = false := by
    rw [← isBlankText_eq, isBlankText_pingLine]
  simp only [reply?, hline, h]
  rfl

/-- A notification, a request whose id is null, a line that is no request, a blank line, a request, a
line that is no text, and a request. -/
def mixedLines : List ByteArray :=
  [(pingLine none).toUTF8, (pingLine (some .null)).toUTF8, "oops\n".toUTF8, " \n".toUTF8,
    (pingLine (some (.int 7))).toUTF8, ⟨#[0xFF, 0x0A]⟩, (pingLine (some (.int 8))).toUTF8]

theorem texts_mixedLines : texts mixedLines =
    [pingLine none, pingLine (some .null), "oops\n", " \n", pingLine (some (.int 7))] := by
  have hoctets : String.fromUTF8? ⟨#[0xFF, 0x0A]⟩ = none := by decide
  rw [mixedLines, texts_toUTF8, texts_toUTF8, texts_toUTF8, texts_toUTF8, texts_toUTF8, texts, hoctets]

/-- A number that does not fit 64 bits. -/
def largeId : Int := 123456789012345678901234567890

/-- The number that it is read as. -/
def roundedId : Json.Binary64 := ⟨false, 7017705969039166, 44⟩

theorem value?_largeId : (Json.wholeNumeral largeId).value? = some (.float roundedId) := by
  have hfloat : (Json.wholeNumeral largeId).float? = some roundedId := by
    decide +kernel
  rw [Json.value?_wholeNumeral_of_lt (by decide), hfloat, Option.map_some]

theorem read?_largeId : Request.read? (Text.trim (pingLine (some (.int largeId))).toList) =
    some ⟨some (.float roundedId), "ping", none⟩ := by
  have hstring (name s : String) (rest : List Char) :
      Reads (Json.value? (fieldLimit name) (Json.quoted s ++ rest)) (.string s) rest :=
    Json.value?_scalar rfl (by decide) (by decide) (Json.scalar?_string s)
  have hid : Reads (Json.value? (fieldLimit "id") (Json.intChars largeId ++ ['\x7d']))
      (.float roundedId) ['\x7d'] :=
    Json.value?_number value?_largeId (Json.delimits_cons rfl [])
  have hfields := readFields?_next (Json.fieldName?_reads "jsonrpc") (hstring "jsonrpc" "2.0" _)
    (readFields?_next (Json.fieldName?_reads "method") (hstring "method" "ping" _)
      (readFields?_last (Json.fieldName?_reads "id") hid))
  have htext : Json.fieldChars (pingFields (some (.int largeId))) ++ ['\x7d'] =
      Json.quoted "jsonrpc" ++ ':' :: (Json.quoted "2.0" ++ ',' :: (Json.quoted "method" ++
        ':' :: (Json.quoted "ping" ++ ',' :: (Json.quoted "id" ++
          ':' :: (Json.intChars largeId ++ ['\x7d']))))) := by
    simp [pingFields, Json.fieldChars, Json.chars]
  rw [trim_pingLine, ← List.append_nil (Json.chars _), Json.chars_object_append, htext,
    Request.read?_object hfields]
  rfl

end Pings

end TableCalc.Server
