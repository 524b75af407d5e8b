import Lifeline.Proofs.Mermaid.Compaction

/-!
# The line that a strict reader refuses

A strict reader of diagrams reports what the lenient one passes over.  It reads a text
with the same outcome, or it refuses the first line that it does not know.  The lines in
front of that line are read strictly, and the lenient reader does without the line: no
mode, no participant and no place of a message depends on it.

Conversion and outline go through the trimmed lines one after the other, the first in a
mode that changes from line to line and the second with nothing in mind, so what is said
of them is proved for any reader of this kind.
-/

namespace Lifeline

open PlantUml (trimmedLines)

variable {σ α : Type}

namespace LineReader

variable {r : LineReader σ} {ls : List Text} {read : Bool → Text → Except UnrecognizedLine α}

/-- Reading strictly reports exactly what reading leniently passes over. -/
structure Reports (r : LineReader σ) (read : Bool → Text → Except UnrecognizedLine α) :
    Prop where
  /-- Every text is read leniently. -/
  lenient : ∀ t, ∃ a, read false t = .ok a
  /-- A text is read strictly when all its lines are known. -/
  accepts_iff : ∀ t, (∃ a, read true t = .ok a) ↔
    ∀ before line behind, trimmedLines t = before ++ line :: behind →
      r.knows (r.after before) line = true
  /-- A text that is read strictly is read as it is leniently. -/
  accepted : ∀ t a, read true t = .ok a → read false t = .ok a
  /-- A line that is refused stands in the text, the lines before it are read strictly, and
  without it the text is read leniently as before. -/
  refused : ∀ t e, read true t = .error e →
    ∃ before line behind, Text.lines t = before ++ line :: behind ∧
      e = ⟨Text.strip line, before.length + 1⟩ ∧
      (∃ a, read true (Text.unlines before) = .ok a) ∧
      read false (Text.unlines (before ++ behind)) = read false t

/-! ## Lines put together -/

/-- Lines that are joined are trimmed one by one.  No lines at all make a blank one. -/
theorem trimmedLines_unlines (hls : ∀ l ∈ ls, .char '\n' ∉ l) :
    trimmedLines (Text.unlines ls) = ls.map Text.strip ∨
      ls = [] ∧ trimmedLines (Text.unlines ls) = [[]] := by
  by_cases hnil : ls = []
  · refine Or.inr ⟨hnil, ?_⟩
    rw [hnil]
    rfl
  · exact Or.inl (congrArg (List.map Text.strip) (Text.lines_unlines hnil hls))

/-- Where the trimmed lines of a text are parted, the lines themselves are. -/
theorem exists_lines_of_trimmedLines {t line : Text} {pieces rest : List Text}
    (h : trimmedLines t = pieces ++ line :: rest) :
    ∃ before raw behind, Text.lines t = before ++ raw :: behind ∧
      before.map Text.strip = pieces ∧ Text.strip raw = line ∧ behind.map Text.strip = rest ∧
      ∀ l ∈ before ++ behind, .char '\n' ∉ l := by
  obtain ⟨before, tail, hcut, hbefore, htail⟩ := List.map_eq_append_iff.mp h
  obtain ⟨raw, behind, rfl, hraw, hbehind⟩ := List.map_eq_cons_iff.mp htail
  refine ⟨before, raw, behind, hcut, hbefore, hraw, hbehind, fun l hl => ?_⟩
  have hmem : l ∈ Text.lines t := by
    rw [hcut]
    exact ((List.sublist_cons_self raw behind).append_left before).subset hl
  exact Text.newline_notMem_of_mem_lines hmem

/-- A reader reports what it passes over when it takes no notice of a line that is not
known, and of a blank line that is the only one. -/
theorem reports_of (outcome : List Text → α)
    (hlenient : ∀ t, read false t = .ok (outcome (trimmedLines t)))
    (hstrict : ∀ t, read true t = match r.refused? r.start 1 (trimmedLines t) with
      | some e => .error e
      | none => read false t)
    (hblank : outcome [[]] = outcome [] ∧ r.knows r.start [] = true)
    (hdelete : ∀ before line behind, Text.strip line = line →
      r.knows (r.after before) line = false →
        outcome (before ++ line :: behind) = outcome (before ++ behind)) :
    r.Reports read := by
  have haccepts : ∀ t, (∃ a, read true t = .ok a) ↔
      r.refused? r.start 1 (trimmedLines t) = none := by
    intro t
    rw [hstrict, hlenient]
    cases r.refused? r.start 1 (trimmedLines t) with
    | none => simp
    | some e => simp
  -- Lines that are put together and cut again stay the same, but for no lines, which become a blank
  -- one.
  have hlines : ∀ ls, (∀ l ∈ ls, .char '\n' ∉ l) →
      read false (Text.unlines ls) = .ok (outcome (ls.map Text.strip)) := by
    intro ls hls
    rw [hlenient]
    rcases trimmedLines_unlines hls with htrimmed | ⟨rfl, htrimmed⟩
    · rw [htrimmed]
    · rw [htrimmed, hblank.1]
      rfl
  refine ⟨fun t => ⟨_, hlenient t⟩, fun t => (haccepts t).trans refused?_eq_none_iff, ?_, ?_⟩
  · intro t a h
    have hnone := (haccepts t).mp ⟨a, h⟩
    rw [hstrict, hnone] at h
    exact h
  · intro t e h
    obtain ⟨pieces, line, rest, htrimmed, rfl, hbefore, hunknown⟩ :
        ∃ pieces line rest, trimmedLines t = pieces ++ line :: rest ∧
          e = ⟨line, 1 + pieces.length⟩ ∧ r.refused? r.start 1 pieces = none ∧
          r.knows (r.after pieces) line = false := by
      rw [hstrict] at h
      split at h
      · rename_i found hfound
        obtain rfl := Except.error.inj h
        exact exists_of_refused? hfound
      · rw [hlenient] at h
        contradiction
    -- The lines that were refused are trimmed ones; they come from lines of the text.
    obtain ⟨before, raw, behind, hcut, rfl, rfl, rfl, hclean⟩ :=
      exists_lines_of_trimmedLines htrimmed
    refine ⟨before, raw, behind, hcut, ?_, ?_, ?_⟩
    · rw [List.length_map, Nat.add_comm]
    · rw [haccepts]
      rcases trimmedLines_unlines fun l hl => hclean l (List.mem_append_left _ hl) with
        hsame | ⟨-, hsame⟩
      · rw [hsame]
        exact hbefore
      · rw [hsame, refused?, if_pos hblank.2]
        rfl
    · rw [hlines _ hclean, hlenient, htrimmed, List.map_append,
        hdelete _ _ _ (Text.strip_strip raw) hunknown]

end LineReader

/-! ## Conversion -/

namespace PlantUml

variable {line : Text} {mode : Mode} {before : List Text}

theorem drawing_of_unrecognized (h : (drawing line).2 = .unrecognized) :
    (drawing line).1 = .neutral := by
  unfold drawing at h ⊢
  split at h
  · contradiction
  · split at h
    · contradiction
    · split at h
      · contradiction
      · rename_i hnote
        rw [if_neg hnote]
        split <;> rfl

theorem neutralStep_of_unrecognized (h : (neutralStep line).2 = .unrecognized) :
    (neutralStep line).1 = .neutral := by
  unfold neutralStep at h ⊢
  split at h
  · contradiction
  · contradiction
  · contradiction
  · contradiction
  · split at h
    · contradiction
    · rename_i hstyling
      split at h
      · contradiction
      · rename_i htitle
        split at h
        · contradiction
        · rename_i hautonumber
          simp only [hstyling, hautonumber]
          exact drawing_of_unrecognized h

/-- A line that is not recognised leaves the mode as it is. -/
theorem step_of_unrecognized (h : (step mode line).2 = .unrecognized) :
    (step mode line).1 = mode := by
  cases mode with
  | neutral => exact neutralStep_of_unrecognized h
  | comment => contradiction
  | note => contradiction
  | styling more => contradiction

theorem mermaid_verdicts_deleteLine (behind : List Text)
    (h : (step (before.foldl converter.next mode) line).2 = .unrecognized) :
    (verdicts mode (before ++ line :: behind)).filterMap Verdict.mermaid? =
      (verdicts mode (before ++ behind)).filterMap Verdict.mermaid? := by
  induction before generalizing mode with
  | nil =>
      have hmode : (step mode line).1 = mode := step_of_unrecognized h
      have hnone : (step mode line).2.mermaid? = none := by
        rw [show (step mode line).2 = .unrecognized from h]
        rfl
      rw [List.nil_append, List.nil_append, verdicts_cons, List.filterMap_cons_none hnone, hmode]
  | cons l before ih =>
      have hlater := @ih (step mode l).1 h
      rw [List.cons_append, List.cons_append, verdicts_cons, verdicts_cons, List.filterMap_cons,
        List.filterMap_cons, hlater]

theorem reports_convertWith : converter.Reports convertWith := by
  refine LineReader.reports_of
    (fun ls => diagram ((verdicts .neutral ls).filterMap Verdict.mermaid?))
    (fun t => rfl) (fun t => ?_) ⟨rfl, rfl⟩ ?_
  · show convertStrict t = _
    simp only [convertStrict, firstUnrecognized?_eq]
    rfl
  · intro before line behind _ hunknown
    have hverdict : (step (converter.after before) line).2 = .unrecognized := by
      simpa [converter] using hunknown
    exact congrArg diagram (mermaid_verdicts_deleteLine behind hverdict)

end PlantUml

/-! ## Outlines -/

namespace Mermaid

variable {line : Text}

theorem reports_outlineWith : outliner.Reports outlineWith := by
  have houtline : ∀ t, outline t = outlineOfLines (trimmedLines t) := by
    intro t
    rw [outline_eq, trimmedLines, outlineOfLines_map_strip]
  refine LineReader.reports_of outlineOfLines (fun t => ?_) (fun t => ?_) ⟨rfl, rfl⟩ ?_
  · exact congrArg Except.ok (houtline t)
  · show outlineStrict t = _
    rw [outlineStrict, firstUnrecognized?_eq]
    rfl
  · intro before line behind htrim hunknown
    have hkind : kindOf line = .unrecognized := by
      rw [kindOf, htrim]
      simpa [outliner] using hunknown
    exact outlineOfLines_deleteLine (by rw [hkind]; rfl) (by rw [hkind]; rfl) before behind

/-- Converting and outlining strictly report exactly what they pass over leniently. -/
theorem strict_reports_passedOver :
    PlantUml.converter.Reports PlantUml.convertWith ∧ outliner.Reports outlineWith :=
  ⟨PlantUml.reports_convertWith, reports_outlineWith⟩

end Mermaid
end Lifeline
