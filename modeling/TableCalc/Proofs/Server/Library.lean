import TableCalc.Server.Session
import TableCalc.Proofs.Outcome

/-!
The documents that a server lists and those that it finds. The list shows a file under the name
before its ending, and a request asks for a name and gets the file that it is the name of. The two
agree wherever a request may ask at all: not for a name that could lead out of the directory or to
a hidden file, though the list shows hidden files too.
-/

namespace TableCalc.Text

variable {start finish cs part : List Char}

theorem dropStart?_eq_some_iff : dropStart? start cs = some part ↔ cs = start ++ part := by
  constructor
  · intro h
    simp only [dropStart?, Option.ite_none_right_eq_some, Option.some.injEq] at h
    obtain ⟨hstart, rfl⟩ := h
    obtain ⟨rest, rfl⟩ := List.isPrefixOf_iff_prefix.mp hstart
    simp
  · rintro rfl
    simp [dropStart?]

theorem dropEnd?_eq_some_iff : dropEnd? finish cs = some part ↔ cs = part ++ finish := by
  constructor
  · intro h
    simp only [dropEnd?, Option.ite_none_right_eq_some, Option.some.injEq] at h
    obtain ⟨hfinish, rfl⟩ := h
    obtain ⟨stem, rfl⟩ := List.isSuffixOf_iff_suffix.mp hfinish
    simp
  · rintro rfl
    simp [dropEnd?]

end TableCalc.Text

namespace TableCalc.Server

variable {wording : Wording} {library : Library} {engine : Engine} {file name content : String}

theorem documentName?_eq_some_iff :
    documentName? file = some name ↔ name ≠ "" ∧ file = fileName name := by
  have hfile : file = fileName name ↔ file.toList = name.toList ++ ".md".toList := by
    rw [fileName, ← String.toList_inj, String.toList_append]
  rw [hfile, ← Text.dropEnd?_eq_some_iff]
  constructor
  · intro h
    simp only [documentName?, Option.bind_eq_bind, Option.bind_eq_some_iff,
      Option.ite_none_left_eq_some] at h
    obtain ⟨stem, hstem, hnonempty, hname⟩ := h
    cases hname
    exact ⟨by simpa using hnonempty, by simpa using hstem⟩
  · rintro ⟨hname, hstem⟩
    have hnonempty : name.toList.isEmpty = false := by simpa using hname
    simp only [documentName?, hstem, Option.bind_eq_bind, Option.bind_some, hnonempty,
      Bool.false_eq_true, if_false, String.ofList_toList]
    rfl

namespace Library

/-- Whether a library shows a name: the list of documents has an entry of that name, and the entry
says where to read it. -/
def Lists (library : Library) (name : String) : Prop :=
  ∃ entries, library.listJson.field? "resources" = some (.array entries) ∧
    ∃ entry ∈ entries, entry.field? "name" = some (.string name) ∧
      entry.field? "uri" = some (.string (documentScheme ++ name))

theorem mem_documents_iff :
    (name, content) ∈ library.documents ↔
      name ≠ "" ∧ (fileName name, content) ∈ library.files := by
  simp only [documents, List.mem_mergeSort, List.mem_filterMap, Option.map_eq_some_iff,
    Prod.exists, Prod.mk.injEq, documentName?_eq_some_iff]
  constructor
  · rintro ⟨file, _, hmem, _, ⟨hname, rfl⟩, rfl, rfl⟩
    exact ⟨hname, hmem⟩
  · rintro ⟨hname, hmem⟩
    exact ⟨fileName name, content, hmem, name, ⟨hname, rfl⟩, rfl, rfl⟩

theorem lists_iff :
    library.Lists name ↔ name ≠ "" ∧ (library.files.lookup (fileName name)).isSome := by
  have hlists : library.Lists name ↔ ∃ content, (name, content) ∈ library.documents := by
    constructor
    · rintro ⟨entries, hentries, entry, hmem, hname, -⟩
      cases hentries
      obtain ⟨⟨listed, content⟩, hdocument, rfl⟩ := List.mem_map.mp hmem
      cases hname
      exact ⟨content, hdocument⟩
    · rintro ⟨content, hdocument⟩
      exact ⟨_, rfl, entryJson name content, List.mem_map_of_mem hdocument, rfl, rfl⟩
  rw [hlists, List.lookup_isSome_iff]
  simp [mem_documents_iff]

instance : Decidable (library.Lists name) := decidable_of_iff _ lists_iff.symm

theorem load_eq_ok_iff :
    library.load name = .ok content ↔
      isForbidden name = false ∧ library.files.lookup (fileName name) = some content := by
  unfold load
  cases isForbidden name with
  | true => simp
  | false => cases library.files.lookup (fileName name) <;> simp

end Library

/-- What a server shows for a document that is read. -/
def contentsJson (name content : String) : Json :=
  .object [("contents", .array [.object [("uri", .string (documentScheme ++ name)),
    ("mimeType", .string "text/markdown"), ("text", .string content)]])]

/-- What a server shows for a document that is evaluated. -/
def evaluationJson (engine : Engine) (name content : String) : Json :=
  .object (documentFields (engine.evaluateMarkdown content) ++
    [("source_file", .string (fileName name))])

/-- The requests for the document of a name, each with what it shows of the content. -/
inductive AsksFor (engine : Engine) (name : String) : Request → (String → Json) → Prop
  | read (id : Option Json) (params : Json)
      (huri : params.field? "uri" = some (.string (documentScheme ++ name))) :
      AsksFor engine name ⟨id, "resources/read", some params⟩ (contentsJson name)
  | evaluate (id : Option Json) (params arguments : Json)
      (htool : params.field? "name" = some (.string "eval_file"))
      (harguments : params.field? "arguments" = some arguments)
      (hname : arguments.field? "name" = some (.string name)) :
      AsksFor engine name ⟨id, "tools/call", some params⟩ (evaluationJson engine name)

theorem Library.read_scheme (library : Library) (name : String) :
    library.read (documentScheme ++ name) = library.load name := by
  have hname : Text.dropStart? documentScheme.toList (documentScheme ++ name).toList =
      some name.toList := by
    rw [Text.dropStart?_eq_some_iff, String.toList_append]
  simp only [Library.read, hname, String.ofList_toList]

theorem AsksFor.outcome_eq {request : Request} {shown : String → Json}
    (h : AsksFor engine name request shown) :
    outcome wording engine library request = (library.load name).map shown := by
  have hmap : (library.load name).map shown =
      library.load name >>= fun content => .ok (shown content) := by
    cases library.load name <;> rfl
  rw [hmap]
  cases h with
  | read id params huri =>
    simp only [outcome, readResource, Option.bind_some, huri, Json.string?, library.read_scheme]
    rfl
  | evaluate id params arguments htool harguments hname =>
    simp only [outcome, callTool, Option.bind_some, htool, harguments, Json.string?,
      Option.getD_some, evaluateFile, stringArgument, hname]
    rfl

namespace Library

theorem exists_load_eq_ok_iff (hname : name ≠ "") :
    (∃ content, library.load name = .ok content) ↔
      library.Lists name ∧ isForbidden name = false := by
  simp only [load_eq_ok_iff, lists_iff, exists_and_left, Option.isSome_iff_exists]
  tauto

theorem load_eq_error {fault : Fault} (h : library.load name = .error fault) :
    isForbidden name = true ∧ fault = .invalidDocumentName name ∨
      ¬ library.Lists name ∧ fault = .documentNotFound name library.names := by
  unfold load at h
  cases hforbidden : isForbidden name with
  | true =>
    simp only [hforbidden, if_true, Except.error.injEq] at h
    exact .inl ⟨rfl, h.symm⟩
  | false =>
    simp only [hforbidden, Bool.false_eq_true, if_false] at h
    cases hfile : library.files.lookup (fileName name) with
    | some content => simp [hfile] at h
    | none =>
      simp only [hfile, Except.error.injEq] at h
      exact .inr ⟨by simp [lists_iff, hfile], h.symm⟩

/-- A server finds what it lists, and nothing else. A name that requests may ask for is found
exactly if the list of documents has it, and then the document is the text of its file. A fault says
that the name is not one to ask for, or that the list does not have it. Reading the document and
evaluating it both come to what is found. The empty name is left out: no document is listed under
it. -/
theorem load_exactly_listed (wording : Wording) (engine : Engine) (library : Library) (name : String)
    (hname : name ≠ "") :
    (∀ id params, outcome wording engine library ⟨id, "resources/list", params⟩ = .ok library.listJson) ∧
    ((∃ content, library.load name = .ok content) ↔
      library.Lists name ∧ isForbidden name = false) ∧
    (∀ content, library.load name = .ok content →
      library.files.lookup (fileName name) = some content) ∧
    (∀ fault, library.load name = .error fault →
      isForbidden name = true ∧ fault = .invalidDocumentName name ∨
        ¬ library.Lists name ∧ fault = .documentNotFound name library.names) ∧
    ∀ request shown, AsksFor engine name request shown →
      outcome wording engine library request = (library.load name).map shown := by
  refine ⟨fun _ _ => rfl, exists_load_eq_ok_iff hname, fun content h => ?_,
    fun _ h => load_eq_error h, fun request shown h => h.outcome_eq⟩
  exact (load_eq_ok_iff.mp h).2

/-- A directory of a document and of a file that is none. -/
def sample : Library := ⟨[("notes.txt", "ignored"), ("hours.md", "# Hours\n")]⟩

theorem load_exactly_listed_sample :
    "hours" ≠ "" ∧ sample.Lists "hours" ∧
      outcome .brief .standard sample ⟨some (.int 1), "resources/read",
        some (.object [("uri", .string "tblfm://documents/hours")])⟩ =
          .ok (contentsJson "hours" "# Hours\n") := by
  have hname : "hours" ≠ "" := by decide
  have hlists : sample.Lists "hours" := by decide
  have hasks : AsksFor .standard "hours" ⟨some (.int 1), "resources/read",
      some (.object [("uri", .string "tblfm://documents/hours")])⟩ (contentsJson "hours") :=
    .read _ _ rfl
  obtain ⟨-, hfinds, hcontent, -, hshows⟩ := load_exactly_listed .brief .standard sample "hours" hname
  obtain ⟨content, hload⟩ := hfinds.mpr ⟨hlists, by decide⟩
  have hfile : "# Hours\n" = content := Option.some.inj (hcontent content hload)
  exact ⟨hname, hlists, by rw [hshows _ _ hasks, hload, ← hfile]; rfl⟩

/-- The list shows a hidden file, but a request may not ask for it. -/
theorem lists_hidden_unread :
    ¬ ((∃ content, load ⟨[(".notes.md", "x")]⟩ ".notes" = .ok content) ↔
      Lists ⟨[(".notes.md", "x")]⟩ ".notes") := by
  intro h
  obtain ⟨content, hload⟩ := h.mpr (by decide)
  exact absurd (load_eq_ok_iff.mp hload).1 (by decide)

end Library

end TableCalc.Server
