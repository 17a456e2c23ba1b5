import TableCalc.Proofs.Document.Sections
import TableCalc.Proofs.Text.Endings

/-!
Texts without tables. They are passed on line by line, whatever pipes, separator lines and directives
stray in them. Only the ends of lines may change: a carriage return in front of a line feed is taken
for a part of the line's end, and lines are written with a line feed alone.
-/

namespace TableCalc

open Text Document

namespace Document

/-- Lines of which none that starts with a pipe has a separator line right below it. -/
def Untabled (ls : List (List Char)) : Prop :=
  ls.IsChain fun line next => isTableLine line = true → isSeparator next = false

instance (ls : List (List Char)) : Decidable (Untabled ls) :=
  inferInstanceAs (Decidable (ls.IsChain _))

/-- Without a header above a separator line, every line is a block of its own. -/
theorem Untabled.divided {ls : List (List Char)} (h : Untabled ls) :
    Divided ls (ls.map fun line => .text (.ofList line)) := by
  induction ls with
  | nil => exact .nil
  | cons line rest ih =>
    obtain ⟨hline, hrest⟩ := List.isChain_cons.mp h
    rw [List.map_cons]
    apply Divided.text
    · intro htable next hnext
      exact hline next hnext htable
    · exact ih hrest

theorem render_map_text (ls : List (List Char)) (ending : Bool) :
    render ⟨ls.map fun line => .text (.ofList line), ending⟩ = .ofList (join ending ls) := by
  simp [render, join, List.flatMap_map, Block.lines]

end Document

namespace Engine

variable {engine : Engine}

theorem mapM_evaluateBlock_text (ls : List (List Char)) :
    (ls.map fun line => Block.text (.ofList line)).mapM engine.evaluateBlock =
      .ok (ls.map fun line => .text (.ofList line)) := by
  rw [mapM_eq_ok_iff, List.forall₂_same]
  intro block hblock
  obtain ⟨line, _, rfl⟩ := List.mem_map.mp hblock
  rw [evaluateBlock]

/-- A text without tables is evaluated to itself with plain line ends, by every engine. So it is
preserved to the byte just if no carriage return stands in front of a line feed. -/
theorem evaluateMarkdown_untabled (engine : Engine) {markdown : String}
    (h : Untabled (lines markdown.toList)) :
    engine.evaluateMarkdown markdown = .ok (.ofList (feedEndings markdown.toList)) ∧
      (engine.evaluateMarkdown markdown = .ok markdown ↔
        ¬ ['\r', '\n'] <:+: markdown.toList) := by
  have hwritten :
      engine.evaluateMarkdown markdown = .ok (.ofList (feedEndings markdown.toList)) := by
    rw [evaluateMarkdown_eq, h.divided.readBlocks_eq, mapM_evaluateBlock_text, ← join_lines,
      ← render_map_text]
    rfl
  refine ⟨hwritten, ?_⟩
  rw [hwritten, Except.ok.injEq, ← feedEndings_eq_self_iff]
  constructor
  · intro heq
    rw [← String.toList_ofList (l := feedEndings markdown.toList), heq]
  · intro heq
    rw [heq, String.ofList_toList]

/-- Pipes and a separator line apart from each other, a directive without a table, empty lines at
the end, and carriage returns that stand in front of no line feed. -/
theorem evaluateMarkdown_untabled_strays :
    let markdown := "\n| a | b |\n\n|---|\n  <!-- TBLFM: @2=1 -->\r \n \t| x\n\r\t|\n- |\n\n\n\r"
    Untabled (lines markdown.toList) ∧
      ¬ ['\r', '\n'] <:+: markdown.toList ∧
      standard.evaluateMarkdown markdown = .ok markdown := by
  intro markdown
  have huntabled : Untabled (lines markdown.toList) := by decide +kernel
  have hreturns : ¬ ['\r', '\n'] <:+: markdown.toList := by decide +kernel
  exact ⟨huntabled, hreturns,
    (standard.evaluateMarkdown_untabled huntabled).2.mpr hreturns⟩

/-- A carriage return in front of a line feed is lost, though no table is near. -/
theorem evaluateMarkdown_untabled_return :
    let markdown := "a\r\nb"
    Untabled (lines markdown.toList) ∧ standard.evaluateMarkdown markdown = .ok "a\nb" ∧
      standard.evaluateMarkdown markdown ≠ .ok markdown := by
  decide +kernel

end Engine

end TableCalc
