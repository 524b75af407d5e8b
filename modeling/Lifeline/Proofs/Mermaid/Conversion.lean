import Lifeline.Proofs.Mermaid.Message
import Lifeline.Proofs.PlantUml.Message
import Lifeline.Proofs.Text.Lines

/-!
# Converted messages in the outline

The Mermaid line of a message between two names is read back as that message and
nothing else: the arrow keeps one dash or two, the sign of an activation is taken
for no part of the target, and the label is the trimmed one.
-/

namespace Lifeline.Mermaid

open PlantUml (Activation WrittenMessage)

variable {line target text t : Text} {c : CodePoint}

/-! ## Arrows between names -/

/-- The Mermaid arrow of a kind, without the sign of an activation. -/
def plainArrow (dashed : Bool) : Text :=
  if dashed then "-->>".toText else "->>".toText

theorem isResponse_plainArrow (dashed : Bool) :
    (Text.after? "--".toText (plainArrow dashed)).isSome = dashed := by
  cases dashed <;> rfl

/-- The sign of an activation does not belong to the target. -/
theorem behindArrow?_sign (htarget : Text.IsName target) (activation : Activation) (t : Text) :
    behindArrow? (activation.sign ++ (target ++ .char ':' :: t)) = some (target, Text.strip t) := by
  have hread : targetAndText? (target ++ .char ':' :: t) = some (target, Text.strip t) := by
    rw [targetAndText?_append htarget.ne_nil (htarget.notMem (by decide)),
      Text.strip_of_trim htarget.trim]
  cases activation with
  | none =>
      obtain ⟨c, tail, rfl⟩ := List.exists_cons_of_ne_nil htarget.ne_nil
      have hword := htarget.isWord c List.mem_cons_self
      have hsign : ¬ (c = '+' ∨ c = '-') :=
        not_or.mpr ⟨Text.ne_of_isWord hword (by decide), Text.ne_of_isWord hword (by decide)⟩
      rw [Activation.sign, List.nil_append, List.cons_append, behindArrow?, if_neg hsign,
        ← List.cons_append, hread]
  | start =>
      rw [Activation.sign, List.singleton_append, behindArrow?, if_pos (Or.inl rfl), hread]
  | stop =>
      rw [Activation.sign, List.singleton_append, behindArrow?, if_pos (Or.inr rfl), hread]

theorem behindSource?_plainArrow {rest : Text} {answer : Text × Text} (dashed : Bool)
    (h : behindArrow? rest = some answer) :
    behindSource? (plainArrow dashed ++ rest) = some (plainArrow dashed, answer) := by
  have hmem : plainArrow dashed ∈ arrows := by
    cases dashed <;> decide
  have hafter : Text.after? (plainArrow dashed) (plainArrow dashed ++ rest) = some rest :=
    Text.after?_eq_some_iff.mpr rfl
  rw [behindSource?, dropBlanks_arrow hmem]
  cases dashed with
  | true =>
      rw [arrows, List.findSome?_cons]
      simp only [show "-->>".toText = plainArrow true from rfl, hafter, h, Option.map_some]
  | false =>
      -- The longer arrow comes first, and a second hyphen is missing.
      have hlonger : Text.after? "-->>".toText (plainArrow false ++ rest) = none := rfl
      rw [arrows, List.findSome?_cons, List.findSome?_cons]
      simp only [hlonger, show "->>".toText = plainArrow false from rfl, hafter, h, Option.map_some]

/-- A line is read at its Mermaid arrow when there are names on both sides. -/
theorem message?_plainArrow {source : Text} (hsource : Text.IsName source)
    (htarget : Text.IsName target) (dashed : Bool) (activation : Activation) (t : Text) :
    message? (source ++ (plainArrow dashed ++ (activation.sign ++ (target ++ .char ':' :: t)))) =
      some ⟨source, target, Text.strip t, dashed⟩ := by
  have hbehind := behindSource?_plainArrow dashed (behindArrow?_sign htarget activation t)
  rw [message?_append hsource hbehind, isResponse_plainArrow]

/-! ## Diagrams of one line -/

theorem outlineWith_line {m : Message} (strict : Bool) (hline : .char '\n' ∉ line)
    (hkind : LineKind.ofLine (Text.strip line) = .message m) :
    (outlineWith strict line).map Outline.steps = .ok [⟨0, m⟩] := by
  have hlines : PlantUml.trimmedLines line = [Text.strip line] := by
    rw [PlantUml.trimmedLines, Text.lines_eq_singleton hline, List.map_singleton]
  have hsteps : (outline line).steps = [⟨0, m⟩] := by
    rw [outline, messages, lineKinds, hlines, List.map_singleton, hkind]
    rfl
  cases strict with
  | false => simp only [outlineWith, Bool.false_eq_true, if_false, Except.map, hsteps]
  | true =>
      have hknown : firstUnrecognized? 1 (PlantUml.trimmedLines line) = none := by
        rw [hlines, firstUnrecognized?, hkind, if_neg (by simp), firstUnrecognized?]
      simp only [outlineWith, outlineStrict, hknown, if_true, Except.map, hsteps]

/-! ## Converted messages -/

section

variable {m : WrittenMessage}

/-- A converted message is trimmed behind its colon only. -/
theorem exists_strip_inMermaid (h : m.WellFormed) :
    ∃ t, Text.strip t = m.label ∧ Text.strip m.inMermaid =
      m.source ++ (plainArrow m.arrow.dashed ++
        (m.activation.sign ++ (m.target ++ .char ':' :: t))) := by
  let body := m.source ++ (plainArrow m.arrow.dashed ++
      (m.activation.sign ++ (m.target ++ [.char ':'])))
  have htrim : Text.Trim body := by
    constructor
    · obtain ⟨c, tail, hcons⟩ := List.exists_cons_of_ne_nil h.isName_source.ne_nil
      have hword := h.isName_source.isWord c (by rw [hcons]; exact List.mem_cons_self)
      exact ⟨c, by simp [body, hcons], Text.isBlank_of_isWord hword⟩
    · exact ⟨':', by simp [body], by decide⟩
  have hstrip : ∀ back, Text.strip (body ++ back) = body ++ Text.dropBlanksEnd back :=
    fun back => Text.strip_append htrim [] back
  have hbody : ∀ back, body ++ back =
      m.source ++ (plainArrow m.arrow.dashed ++
        (m.activation.sign ++ (m.target ++ .char ':' :: back))) :=
    fun back => by simp [body]
  unfold WrittenMessage.inMermaid
  -- Without a label the line ends with the colon, and trimming takes nothing from it.
  by_cases hempty : m.label.isEmpty = true
  · refine ⟨[], (List.isEmpty_iff.mp hempty).symm, ?_⟩
    have hbare : body ++ Text.dropBlanksEnd [] =
        m.source ++ (plainArrow m.arrow.dashed ++
          (m.activation.sign ++ (m.target ++ [.char ':']))) :=
      hbody []
    rw [if_pos hempty, ← hbare, ← hstrip, hbody]
    rfl
  · refine ⟨Text.dropBlanksEnd (.char ' ' :: m.label), ?_, ?_⟩
    · rw [Text.strip_dropBlanksEnd, ← Text.strip_dropBlanks,
        Text.dropBlanks_cons_of_isBlank _ (by decide), Text.strip_dropBlanks]
      exact Text.strip_strip _
    · rw [if_neg hempty, ← hbody, ← hstrip, hbody]
      rfl

theorem newline_notMem_inMermaid (h : m.WellFormed) : .char '\n' ∉ m.inMermaid := by
  have hlabel : .char '\n' ∉ m.label := by
    unfold WrittenMessage.label
    intro hmem
    have hinside := (Text.isInfix_strip _).subset hmem
    cases hlabel : m.label? with
    | none =>
        rw [hlabel] at hinside
        exact absurd hinside List.not_mem_nil
    | some t =>
        rw [hlabel] at hinside
        exact h.label t hlabel hinside
  have harrow : .char '\n' ∉ plainArrow m.arrow.dashed := by
    cases m.arrow.dashed <;> decide
  have hsign : .char '\n' ∉ m.activation.sign := by
    cases m.activation <;> decide
  have hend : .char '\n' ∉ if m.label.isEmpty then [.char ':'] else ": ".toText ++ m.label := by
    split
    · decide
    · simp [hlabel]
  -- No part of the line has a line feed, the names since they are words.
  simp only [WrittenMessage.inMermaid, List.mem_append, not_or]
  exact ⟨h.isName_source.notMem (by decide), harrow, hsign,
    h.isName_target.notMem (by decide), hend⟩

/-- A message line becomes a Mermaid line that runs from its source to its target, with
a dashed arrow for two dashes and a plain one for one, and reading that line back,
strictly or not, gives this one message. -/
theorem convertMessage?_outlineWith (h : m.WellFormed) :
    PlantUml.convertMessage? m.text = some m.inMermaid ∧
      ∀ strict, (outlineWith strict m.inMermaid).map Outline.steps =
        .ok [⟨0, ⟨m.source, m.target, m.label, m.arrow.dashed⟩⟩] := by
  refine ⟨h.convertMessage?_text, fun strict => ?_⟩
  apply outlineWith_line strict (newline_notMem_inMermaid h)
  obtain ⟨t, hlabel, hstrip⟩ := exists_strip_inMermaid h
  have hmessage := message?_plainArrow h.isName_source h.isName_target m.arrow.dashed
    m.activation t
  have hdeclaration : declaration? (Text.strip m.inMermaid) = none := by
    rw [hstrip]
    cases m.arrow.dashed <;> exact declaration?_append h.isName_source _
  have hempty : (Text.strip m.inMermaid).isEmpty = false := by
    rw [hstrip]
    simp [h.isName_source.ne_nil]
  rw [LineKind.ofLine, hempty, if_neg (by decide), hdeclaration]
  simp only [hstrip, hmessage, hlabel]

end

/-- A red dashed arrow that stops an activation, with an arrow in its label as well. -/
def redReply : WrittenMessage where
  left := "Web".toText
  right := "loop".toText
  arrow := ⟨⟨false, true⟩, false, some ⟨"red".toText, by decide, by decide⟩⟩
  early := .stop
  late := .none
  beforeArrow := [' ']
  behindArrow := [' ']
  beforeMark := []
  beforeLabel := ['\t']
  label? := some " a->>b : c ".toText

theorem convertMessage?_outlineWith_redReply :
    redReply.WellFormed ∧ redReply.text = "Web -[#red]->-- loop\t: a->>b : c ".toText ∧
      PlantUml.convertMessage? redReply.text = some "Web-->>-loop: a->>b : c".toText ∧
      ∀ strict, (outlineWith strict "Web-->>-loop: a->>b : c".toText).map Outline.steps =
        .ok [⟨0, ⟨"Web".toText, "loop".toText, "a->>b : c".toText, true⟩⟩] := by
  have hform : redReply.WellFormed :=
    { left := ⟨by decide, List.all_eq_true.mp (by decide)⟩
      right := ⟨by decide, List.all_eq_true.mp (by decide)⟩
      beforeArrow := by decide
      behindArrow := by decide
      beforeMark := by decide
      beforeLabel := by decide
      early := fun _ => ⟨rfl, rfl⟩
      late := fun hlate => absurd rfl hlate
      label := by
        rintro _ ⟨⟩
        decide }
  obtain ⟨hconvert, houtline⟩ := convertMessage?_outlineWith hform
  exact ⟨hform, rfl, hconvert, houtline⟩

end Lifeline.Mermaid
