import Lifeline.Proofs.PlantUml.Directives
import Lifeline.Proofs.PlantUml.Emission

/-!
# Message lines as diagrams

A diagram that is one message line is converted to the header and the message, unless
the name in front of the arrow is the word of a directive.  Then the message is lost,
and a strict conversion does not say so.
-/

namespace Lifeline.PlantUml

variable {t : Text}

/-! ## Diagrams of one line -/

theorem convert_line (hline : .char '\n' ∉ t) :
    convert t = diagram ((neutralStep (Text.strip t)).2.mermaid?).toList := by
  have hlines : trimmedLines t = [Text.strip t] := by
    rw [trimmedLines, Text.lines_eq_singleton hline, List.map_singleton]
  simp only [convert, hlines, verdicts, step]
  cases (neutralStep (Text.strip t)).2 <;> rfl

theorem convertStrict_line (hline : .char '\n' ∉ t)
    (hstep : (neutralStep (Text.strip t)).2 ≠ .unrecognized) :
    convertStrict t = .ok (convert t) := by
  have hlines : trimmedLines t = [Text.strip t] := by
    rw [trimmedLines, Text.lines_eq_singleton hline, List.map_singleton]
  have hnone : firstUnrecognized? 1 (trimmedLines t) (verdicts .neutral (trimmedLines t)) =
      none := by
    simp only [hlines, verdicts, step]
    cases hverdict : (neutralStep (Text.strip t)).2 with
    | unrecognized => exact absurd hverdict hstep
    | dropped => rfl
    | converted m => rfl
  simp only [convertStrict, hnone]

theorem convertWith_eq_ok {strict : Bool} {m : Text} (h : convertWith strict t = .ok m) :
    convert t = m := by
  cases strict with
  | false => exact Except.ok.inj h
  | true => exact convert_eq_of_convertStrict h

theorem diagram_nil_ne (m : Text) : diagram [] ≠ diagram [m] := by
  simp [diagram, Text.unlines, Text.join]

theorem diagram_singleton_inj {m n : Text} : diagram [m] = diagram [n] ↔ m = n := by
  simp [diagram, Text.unlines, Text.join]

/-! ## Message lines -/

/-- A message line with single spaces between its parts, without a colour or a mark.
Its label is what stands behind the colon. -/
def plainMessage (a b label : Text) (kind : ArrowKind) (twoHeads : Bool) : WrittenMessage where
  left := a
  right := b
  arrow := ⟨kind, twoHeads, none⟩
  early := .none
  late := .none
  beforeArrow := [' ']
  behindArrow := [' ']
  beforeMark := []
  beforeLabel := [' ']
  label? := some label

/-- The line `a arrow b : t`. -/
def messageLine (a b t : Text) (kind : ArrowKind) (twoHeads : Bool) : Text :=
  a ++ .char ' ' :: ((WrittenArrow.mk kind twoHeads none).text ++ .char ' ' ::
    (b ++ " : ".toText ++ t))

section

variable {a b label : Text} (kind : ArrowKind) (twoHeads : Bool)

theorem text_plainMessage (a b t : Text) :
    (plainMessage a b (.char ' ' :: t) kind twoHeads).text = messageLine a b t kind twoHeads := by
  simp [plainMessage, messageLine, WrittenMessage.text, WrittenMessage.behind,
    WrittenMessage.ending, WrittenMessage.labelText, Activation.mark]

theorem wellFormed_plainMessage (ha : Text.IsName a) (hb : Text.IsName b)
    (hlabel : .char '\n' ∉ label) :
    (plainMessage a b label kind twoHeads).WellFormed where
  left := ha
  right := hb
  beforeArrow := rfl
  behindArrow := rfl
  beforeMark := rfl
  beforeLabel := rfl
  early := fun h => absurd rfl h
  late := fun h => absurd rfl h
  label := by
    rintro _ ⟨⟩
    exact hlabel

theorem opensArrow_text (a : WrittenArrow) (t : Text) : OpensArrow (a.text ++ t) := by
  unfold WrittenArrow.text WrittenArrow.shaft
  cases a.pointsLeft <;> cases a.twoHeads <;> exact ⟨_, _, rfl, by decide⟩

theorem notMem_text_arrow {c : CodePoint} (hdash : c ≠ '-') (hleft : c ≠ '<') (hright : c ≠ '>') :
    c ∉ (WrittenArrow.mk kind twoHeads none).text := by
  obtain ⟨pointsLeft, dashed⟩ := kind
  cases pointsLeft <;> cases dashed <;> cases twoHeads <;>
    simp [WrittenArrow.text, WrittenArrow.shaft, WrittenArrow.colourText, hdash, hleft, hright]

theorem newline_notMem_messageLine (ha : Text.IsName a) (hb : Text.IsName b) (ht : .char '\n' ∉ t) :
    .char '\n' ∉ messageLine a b t kind twoHeads := by
  have ha' : .char '\n' ∉ a := ha.notMem (by decide)
  have hb' : .char '\n' ∉ b := hb.notMem (by decide)
  have harrow := notMem_text_arrow kind twoHeads (c := '\n') (by decide) (by decide) (by decide)
  simp [messageLine, ha', hb', harrow, ht]

/-- Trimming a message line trims its label. -/
theorem strip_messageLine (ha : Text.IsName a) (t : Text) :
    Text.strip (messageLine a b t kind twoHeads) =
      (plainMessage a b (Text.dropBlanksEnd (.char ' ' :: t)) kind twoHeads).text := by
  let body := a ++ .char ' ' :: ((WrittenArrow.mk kind twoHeads none).text ++ .char ' ' ::
      (b ++ [.char ' ', .char ':']))
  have htrim : Text.Trim body := by
    constructor
    · obtain ⟨c, tail, rfl⟩ := List.exists_cons_of_ne_nil ha.ne_nil
      exact ⟨c, rfl, Text.isBlank_of_isWord (ha.isWord c List.mem_cons_self)⟩
    · exact ⟨.char ':', by simp [body, List.getLast?_cons], by decide⟩
  have hstrip :
      Text.strip (body ++ (.char ' ' :: t)) = body ++ Text.dropBlanksEnd (.char ' ' :: t) :=
    Text.strip_append htrim [] (.char ' ' :: t)
  have hline : messageLine a b t kind twoHeads = body ++ (.char ' ' :: t) := by
    simp [messageLine, body]
  rw [hline, hstrip]
  simp [body, plainMessage, WrittenMessage.text, WrittenMessage.behind, WrittenMessage.ending,
    WrittenMessage.labelText, Activation.mark]

theorem inMermaid_plainMessage_trimmed (a b t : Text) :
    (plainMessage a b (Text.dropBlanksEnd t) kind twoHeads).inMermaid =
      (plainMessage a b t kind twoHeads).inMermaid := by
  have hlabel : (plainMessage a b (Text.dropBlanksEnd t) kind twoHeads).label =
      (plainMessage a b t kind twoHeads).label := Text.strip_dropBlanksEnd t
  unfold WrittenMessage.inMermaid
  rw [hlabel]
  rfl

theorem newline_notMem_label (ht : .char '\n' ∉ t) :
    .char '\n' ∉ .char ' ' :: t ∧ .char '\n' ∉ Text.dropBlanksEnd (.char ' ' :: t) := by
  have hlabel : .char '\n' ∉ .char ' ' :: t := by simp [ht]
  exact ⟨hlabel, fun hmem => hlabel ((Text.dropBlanksEnd_prefix _).subset hmem)⟩

/-- The Mermaid line of a message line, whether it is trimmed or not. -/
theorem convertMessage?_messageLine (ha : Text.IsName a) (hb : Text.IsName b)
    (ht : .char '\n' ∉ t) :
    let m := (plainMessage a b (.char ' ' :: t) kind twoHeads).inMermaid
    convertMessage? (messageLine a b t kind twoHeads) = some m ∧
      convertMessage? (Text.strip (messageLine a b t kind twoHeads)) = some m := by
  obtain ⟨hlabel, htrimmed⟩ := newline_notMem_label ht
  constructor
  · rw [← text_plainMessage]
    exact (wellFormed_plainMessage kind twoHeads ha hb hlabel).convertMessage?_text
  · rw [strip_messageLine kind twoHeads ha, ← inMermaid_plainMessage_trimmed]
    exact (wellFormed_plainMessage kind twoHeads ha hb htrimmed).convertMessage?_text

theorem beginsWithArrow_of_endsBefore {arrow : WrittenArrow} {rest : Text}
    (h : arrow.EndsBefore rest) : beginsWithArrow (arrow.text ++ rest) = true := by
  obtain ⟨more, hends⟩ := List.head?_eq_some_iff.mp (arrow.head?_arrowEnds h)
  rw [beginsWithArrow, hends]
  rfl

/-- A directive makes something of the line that is no message between names. -/
theorem inMermaid_ne {m : WrittenMessage} (hm : m.WellFormed) (word : Text)
    (hword : ∀ b ∈ word, Text.isWord b = true) (rest : Text) :
    word ≠ m.inMermaid ∧ word ++ .char ' ' :: rest ≠ m.inMermaid := by
  obtain ⟨back, hback⟩ := m.exists_inMermaid
  rw [hback]
  constructor
  · rintro rfl
    have hdash := hword '-' (List.mem_append_right _ List.mem_cons_self)
    exact absurd hdash (by decide)
  · intro heq
    have hmark := hm.isName_source.head_eq_of_append_eq hword (by decide) (by decide) heq.symm
    exact absurd hmark (by decide)

/-- The step of a message line is its message if the name is no word of a directive,
and otherwise something else. -/
theorem neutralStep_messageLine (ha : Text.IsName a) (hb : Text.IsName b) (ht : .char '\n' ∉ t) :
    let step := neutralStep (Text.strip (messageLine a b t kind twoHeads))
    let m := (plainMessage a b (.char ' ' :: t) kind twoHeads).inMermaid
    (¬ IsDirective a → step.2 = .converted m) ∧ (IsDirective a → step.2.mermaid? ≠ some m) := by
  obtain ⟨hlabel, htrimmed⟩ := newline_notMem_label ht
  let w := plainMessage a b (Text.dropBlanksEnd (.char ' ' :: t)) kind twoHeads
  have hw : w.WellFormed := wellFormed_plainMessage kind twoHeads ha hb htrimmed
  have hstrip : Text.strip (messageLine a b t kind twoHeads) =
      a ++ .char ' ' :: (w.arrow.text ++ w.behind) := strip_messageLine kind twoHeads ha t
  have hopens : OpensArrow (w.arrow.text ++ w.behind) := opensArrow_text _ _
  constructor
  · intro hdirective
    have hm := (convertMessage?_messageLine kind twoHeads ha hb ht).2
    have hline : .char '\n' ∉ w.arrow.text ++ w.behind := by
      intro hmem
      refine newline_notMem_messageLine kind twoHeads ha hb ht ((Text.isInfix_strip _).subset ?_)
      rw [hstrip]
      exact List.mem_append_right _ (List.mem_cons_of_mem _ hmem)
    rw [hstrip] at hm ⊢
    rw [neutralStep_of_not_isDirective ha hopens
      (beginsWithArrow_of_endsBefore hw.endsBefore_behind) hline hm hdirective]
  · intro hdirective hm
    rw [hstrip] at hm
    have hform := wellFormed_plainMessage kind twoHeads ha hb hlabel
    -- A directive gives a number or a title, and no message looks like these.
    rcases mermaid?_of_isDirective ha hopens hdirective hm with hautonumber | ⟨title, htitle⟩
    · exact (inMermaid_ne hform "autonumber".toText
        (List.all_eq_true.mp (by decide)) []).1 hautonumber.symm
    · exact (inMermaid_ne hform "title".toText
        (List.all_eq_true.mp (by decide)) title).2 htitle.symm

/-- The diagram of one message line is the header and the line of that message, strictly
or not, exactly when the name in front of the arrow is the word of no directive. -/
theorem convertWith_messageLine_iff (ha : Text.IsName a) (hb : Text.IsName b)
    (ht : .char '\n' ∉ t) :
    ∃ m, convertMessage? (messageLine a b t kind twoHeads) = some m ∧
      ∀ strict, convertWith strict (messageLine a b t kind twoHeads) = .ok (diagram [m]) ↔
        ¬ IsDirective a := by
  refine ⟨_, (convertMessage?_messageLine kind twoHeads ha hb ht).1, fun strict => ?_⟩
  have hline := newline_notMem_messageLine kind twoHeads ha hb ht
  obtain ⟨hmessage, hdirective⟩ := neutralStep_messageLine kind twoHeads ha hb ht
  have hconvert := convert_line hline
  constructor
  · -- A directive gives no line, or a line of its own.
    intro hdiagram his
    have hsame := convertWith_eq_ok hdiagram
    rw [hconvert] at hsame
    cases hstep : (neutralStep (Text.strip (messageLine a b t kind twoHeads))).2.mermaid? with
    | none =>
        rw [hstep] at hsame
        exact diagram_nil_ne _ hsame
    | some n =>
        rw [hstep] at hsame
        rw [← diagram_singleton_inj.mp hsame] at hdirective
        exact hdirective his hstep
  · intro hnot
    have hstep := hmessage hnot
    have hdiagram := hconvert
    rw [hstep] at hdiagram
    have hstrict := convertStrict_line hline (by rw [hstep]; simp)
    cases strict with
    | false => exact congrArg _ hdiagram
    | true => exact hstrict.trans (congrArg _ hdiagram)

theorem convertWith_messageLine_iff_showcase :
    Text.IsName "showcase".toText ∧ Text.IsName "B".toText ∧ .char '\n' ∉ "x".toText ∧
      ∃ m, convertMessage? "showcase <<-- B : x".toText = some m ∧
        ∀ strict, convertWith strict "showcase <<-- B : x".toText = .ok (diagram [m]) ↔
          ¬ IsDirective "showcase".toText := by
  have ha : Text.IsName "showcase".toText := ⟨by decide, List.all_eq_true.mp (by decide)⟩
  have hb : Text.IsName "B".toText := ⟨by decide, List.all_eq_true.mp (by decide)⟩
  exact ⟨ha, hb, by decide, convertWith_messageLine_iff ⟨true, true⟩ true ha hb (by decide)⟩

/-- A message from a participant named `hide` disappears. -/
theorem convertStrict_hide_loses_message :
    Text.IsName "hide".toText ∧ Text.IsName "B".toText ∧
      messageLine "hide".toText "B".toText "x".toText ⟨false, false⟩ false =
        "hide -> B : x".toText ∧
      convertMessage? "hide -> B : x".toText = some "hide->>B: x".toText ∧
      convert "hide -> B : x".toText = "sequenceDiagram".toText ∧
      convertStrict "hide -> B : x".toText = .ok "sequenceDiagram".toText := by
  have ha : Text.IsName "hide".toText := ⟨by decide, List.all_eq_true.mp (by decide)⟩
  have hb : Text.IsName "B".toText := ⟨by decide, List.all_eq_true.mp (by decide)⟩
  exact ⟨ha, hb, rfl, rfl, rfl, rfl⟩

end

end Lifeline.PlantUml
