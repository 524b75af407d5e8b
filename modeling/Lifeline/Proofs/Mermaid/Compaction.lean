import Lifeline.Proofs.Mermaid.Concatenation
import Lifeline.Proofs.Mermaid.LineReader
import Lifeline.Proofs.PlantUml.Emission

/-!
# Diagrams whose lines are trimmed

Trimming the lines of a diagram and dropping the blank ones changes nothing about it.
A blank line leaves the converter in its mode, also inside a block comment, a note of
several lines and a styling block, and it gives no Mermaid line; and it declares and
sends nothing.  So what is read from a diagram depends on its solid lines alone, and
trimming keeps those.  A line that is refused stays the same line, and gets another
number only.
-/

namespace Lifeline

namespace Text

variable {t : Text}

/-- The trimmed lines that are not blank. -/
def solidLines (t : Text) : List Text :=
  ((lines t).map strip).filter fun l => !l.isEmpty

theorem compactLines_eq (t : Text) : compactLines t = unlines (solidLines t) := rfl

theorem mem_solidLines {l : Text} (h : l ∈ solidLines t) :
    l ≠ [] ∧ strip l = l ∧ .char '\n' ∉ l := by
  obtain ⟨hmem, hsolid⟩ := List.mem_filter.mp h
  obtain ⟨line, hline, rfl⟩ := List.mem_map.mp hmem
  refine ⟨by simpa using hsolid, strip_strip line, ?_⟩
  exact fun hbreak => newline_notMem_of_mem_lines hline (strip_subset line hbreak)

/-- Solid lines that are joined are the solid lines of what they are joined to. -/
theorem solidLines_unlines {ls : List Text}
    (hls : ∀ l ∈ ls, l ≠ [] ∧ strip l = l ∧ .char '\n' ∉ l) :
    solidLines (unlines ls) = ls := by
  by_cases hnil : ls = []
  · rw [hnil]
    rfl
  · have htrimmed : ls.map strip = ls :=
      (List.map_congr_left fun l hl => (hls l hl).2.1).trans (List.map_id ls)
    rw [solidLines, lines_unlines hnil fun l hl => (hls l hl).2.2, htrimmed,
      List.filter_eq_self]
    intro l hl
    simpa using (hls l hl).1

theorem solidLines_compactLines (t : Text) : solidLines (compactLines t) = solidLines t :=
  solidLines_unlines fun _ hl => mem_solidLines hl

theorem compactLines_compactLines (t : Text) : compactLines (compactLines t) = compactLines t := by
  rw [compactLines_eq, solidLines_compactLines, compactLines_eq]

end Text

/-! ## Conversion -/

namespace PlantUml

variable {ls : List Text}

theorem filter_trimmedLines (t : Text) :
    ((trimmedLines t).filter fun l => !l.isEmpty) = Text.solidLines t := rfl

/-- A blank line leaves every mode as it is and gives nothing. -/
theorem step_nil (mode : Mode) : step mode [] = (mode, .dropped) := by
  cases mode with
  | neutral => rfl
  | comment => rfl
  | note => rfl
  | styling more => rfl

theorem mermaid_verdicts_filter (mode : Mode) (ls : List Text) :
    (verdicts mode (ls.filter fun l => !l.isEmpty)).filterMap Verdict.mermaid? =
      (verdicts mode ls).filterMap Verdict.mermaid? := by
  -- The mode behind a line is the same in both runs, so it is what the induction carries.
  induction ls generalizing mode with
  | nil => rfl
  | cons l ls ih =>
      cases l with
      | nil =>
          rw [List.filter_cons_of_neg (by decide), ih mode, verdicts_cons, step_nil,
            List.filterMap_cons_none rfl]
      | cons c l =>
          rw [List.filter_cons_of_pos rfl, verdicts_cons, verdicts_cons, List.filterMap_cons,
            List.filterMap_cons, ih]

theorem line_firstUnrecognized?_filter (mode : Mode) (ls : List Text) (number other : Nat) :
    (firstUnrecognized? number (ls.filter fun l => !l.isEmpty)
        (verdicts mode (ls.filter fun l => !l.isEmpty))).map UnrecognizedLine.line =
      (firstUnrecognized? other ls (verdicts mode ls)).map UnrecognizedLine.line := by
  have hblank : ∀ mode, converter.knows mode [] = true ∧ converter.next mode [] = mode := by
    intro mode
    simp [converter, step_nil]
  rw [firstUnrecognized?_eq, firstUnrecognized?_eq, LineReader.line_refused?_filter hblank]

/-- The conversion of a diagram depends on its solid lines alone. -/
theorem convert_eq (t : Text) :
    convert t = diagram ((verdicts .neutral (Text.solidLines t)).filterMap Verdict.mermaid?) := by
  rw [convert, ← mermaid_verdicts_filter, filter_trimmedLines]

theorem mapError_convertStrict (t : Text) :
    (convertStrict t).mapError UnrecognizedLine.line =
      match (firstUnrecognized? 1 (Text.solidLines t)
          (verdicts .neutral (Text.solidLines t))).map UnrecognizedLine.line with
      | some line => .error line
      | none => .ok (convert t) := by
  rw [← filter_trimmedLines, line_firstUnrecognized?_filter .neutral _ 1 1]
  simp only [convertStrict]
  cases firstUnrecognized? 1 (trimmedLines t) (verdicts .neutral (trimmedLines t)) with
  | none => rfl
  | some e => rfl

end PlantUml

/-! ## Outlines -/

namespace Mermaid

/-- Blank lines declare and send nothing. -/
theorem outlineOfLines_filter (ls : List Text) :
    outlineOfLines (ls.filter fun l => !l.isEmpty) = outlineOfLines ls := by
  induction ls with
  | nil => rfl
  | cons l ls ih =>
      cases l with
      | nil => exact ih
      | cons c l =>
          show outlineOfLines ([c :: l] ++ _) = outlineOfLines ([c :: l] ++ ls)
          rw [outlineOfLines_append, ih, ← outlineOfLines_append]

theorem outlineOfLines_map_strip (ls : List Text) :
    outlineOfLines (ls.map Text.strip) = outlineOfLines ls := by
  simp only [outlineOfLines, kindOf, List.flatMap_map, List.filterMap_map, Function.comp_def,
    Text.strip_strip]

theorem outline_compactLines (t : Text) : outline (Text.compactLines t) = outline t := by
  rw [Text.compactLines_eq, outline_unlines fun _ hl => (Text.mem_solidLines hl).2.2,
    Text.solidLines, outlineOfLines_filter, outlineOfLines_map_strip, ← outline_eq]

theorem line_firstUnrecognized?_filter (ls : List Text) (number other : Nat) :
    (firstUnrecognized? number (ls.filter fun l => !l.isEmpty)).map UnrecognizedLine.line =
      (firstUnrecognized? other ls).map UnrecognizedLine.line := by
  have hblank : ∀ s, outliner.knows s [] = true ∧ outliner.next s [] = s :=
    fun _ => ⟨rfl, rfl⟩
  rw [firstUnrecognized?_eq, firstUnrecognized?_eq, LineReader.line_refused?_filter hblank]

theorem mapError_outlineStrict (t : Text) :
    (outlineStrict t).mapError UnrecognizedLine.line =
      match (firstUnrecognized? 1 (Text.solidLines t)).map UnrecognizedLine.line with
      | some line => .error line
      | none => .ok (outline t) := by
  rw [← PlantUml.filter_trimmedLines, line_firstUnrecognized?_filter _ 1 1, outlineStrict]
  cases firstUnrecognized? 1 (PlantUml.trimmedLines t) with
  | none => rfl
  | some e => rfl

/-- A diagram with its lines trimmed and the blank ones dropped is converted and outlined
as before, and a strict reader refuses the same line or none.  Trimming it once more
changes nothing. -/
theorem compactLines_keeps_diagram (t : Text) :
    PlantUml.convert (Text.compactLines t) = PlantUml.convert t ∧
      outline (Text.compactLines t) = outline t ∧
      (PlantUml.convertStrict (Text.compactLines t)).mapError UnrecognizedLine.line =
        (PlantUml.convertStrict t).mapError UnrecognizedLine.line ∧
      (outlineStrict (Text.compactLines t)).mapError UnrecognizedLine.line =
        (outlineStrict t).mapError UnrecognizedLine.line ∧
      Text.compactLines (Text.compactLines t) = Text.compactLines t := by
  have hconvert : PlantUml.convert (Text.compactLines t) = PlantUml.convert t := by
    rw [PlantUml.convert_eq, Text.solidLines_compactLines, ← PlantUml.convert_eq]
  refine ⟨hconvert, outline_compactLines t, ?_, ?_, Text.compactLines_compactLines t⟩
  · rw [PlantUml.mapError_convertStrict, Text.solidLines_compactLines, hconvert,
      ← PlantUml.mapError_convertStrict]
  · rw [mapError_outlineStrict, Text.solidLines_compactLines, outline_compactLines,
      ← mapError_outlineStrict]

end Mermaid
end Lifeline
