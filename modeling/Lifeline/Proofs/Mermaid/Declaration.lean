import Lifeline.Proofs.Mermaid.Conversion
import Lifeline.Proofs.PlantUml.Declaration
import Lifeline.Proofs.PlantUml.MessageLines

/-!
# Converted declarations in the outline

A declaration has its label and its short name the other way round in Mermaid, where the
line is cut at the first `as` behind white space.  Nothing in a short name can be taken for
that, so the label may hold an `as` of its own, an arrow or a colon.  The declaration is read
before any message on the line is looked for.
-/

namespace Lifeline.Mermaid

open PlantUml (IsDirective WrittenDeclaration WrittenMessage diagram messageLine neutralStep
  plainMessage trimmedLines)

variable {d : WrittenDeclaration} {m : WrittenMessage} {b label name t : Text}

/-! ## Declarations -/

theorem label?_as (hlabel : Text.Trim label) :
    label? (" as ".toText ++ label) = some (some label) := by
  obtain ⟨c, hhead, hc⟩ := hlabel.head
  obtain ⟨rest, hcons⟩ := List.head?_eq_some_iff.mp hhead
  have hstrip := Text.strip_of_trim hlabel
  have hfront : Text.afterBlanks? (" as ".toText ++ label) = some ("as ".toText ++ label) := rfl
  have hword : Text.after? "as".toText ("as ".toText ++ label) = some (.char ' ' :: label) := rfl
  have hblanks : Text.afterBlanks? (.char ' ' :: label) = some label := by
    rw [Text.afterBlanks?_cons_of_isBlank _ (by decide), hcons,
      Text.dropBlanks_cons_of_not_isBlank _ hc]
  rw [label?]
  · simp only [hfront, hword, hblanks]
    rw [hcons] at hstrip ⊢
    simp only [hstrip]
  · exact List.cons_ne_nil _ _

/-- A label begins behind white space, so it does not begin inside a name. -/
theorem label?_cons {c : CodePoint} (hc : Text.isWord c = true) (t : Text) :
    label? (c :: t) = none := by
  simp only [label?, Text.afterBlanks?_cons_of_not_isBlank t (Text.isBlank_of_isWord hc)]

/-- A declaration is cut at the first `as` behind the name, whatever the label is. -/
theorem declaration?_keyword (isActor : Bool) (hname : Text.IsName name)
    (hlabel : Text.Trim label) :
    declaration? ((if isActor then "actor ".toText else "participant ".toText) ++
      (name ++ (" as ".toText ++ label))) = some ⟨name, some label, isActor⟩ := by
  have hfewest : Text.fewestSome (fun _ => true) label? (name ++ (" as ".toText ++ label)) =
      some (name, some label) :=
    Text.fewestSome_append hname.ne_nil (fun _ _ => rfl)
      (fun c hc => label?_cons (hname.isWord c hc)) (label?_as hlabel)
  have hblanks : Text.afterBlanks? (.char ' ' :: (name ++ (" as ".toText ++ label))) =
      some (name ++ (" as ".toText ++ label)) := by
    obtain ⟨c, tail, rfl, hc⟩ := hname.exists_cons
    rw [Text.afterBlanks?_cons_of_isBlank _ (by decide), List.cons_append,
      Text.dropBlanks_cons_of_not_isBlank _ (Text.isBlank_of_isWord hc)]
  have hstrip := Text.strip_of_trim hname.trim
  -- From here on only what stands in front of the name matters.
  generalize name ++ (" as ".toText ++ label) = rest at *
  cases isActor with
  | true =>
      have hcreate : Text.after? "create".toText ("actor ".toText ++ rest) = none := rfl
      have hother : Text.after? "participant".toText ("actor ".toText ++ rest) = none := rfl
      have hafter : Text.after? "actor".toText ("actor ".toText ++ rest) =
          some (.char ' ' :: rest) := rfl
      simp only [if_true, declaration?, declarationHere?, hcreate, hother, hafter, hblanks, hfewest,
        hstrip, Option.map_some]
  | false =>
      have hcreate : Text.after? "create".toText ("participant ".toText ++ rest) = none := rfl
      have hafter : Text.after? "participant".toText ("participant ".toText ++ rest) =
          some (.char ' ' :: rest) := rfl
      simp only [Bool.false_eq_true, if_false, declaration?, declarationHere?, hcreate, hafter,
        hblanks, hfewest, hstrip, Option.map_some]

theorem trim_inMermaid (h : d.WellFormed) : Text.Trim d.inMermaid := by
  obtain ⟨c, hlast, hc⟩ := h.trim_shownLabel.last
  refine ⟨?_, c, ?_, hc⟩
  · unfold WrittenDeclaration.inMermaid
    cases d.isActor with
    | true => exact ⟨'a', rfl, by decide⟩
    | false => exact ⟨'p', rfl, by decide⟩
  · simp only [WrittenDeclaration.inMermaid, List.getLast?_append, hlast, Option.some_or]

theorem ofLine_declaration (h : d.WellFormed) :
    LineKind.ofLine (Text.strip d.inMermaid) =
      .declaration ⟨d.name, some d.shownLabel, d.isActor⟩ := by
  have hread := declaration?_keyword d.isActor h.name h.trim_shownLabel
  have hempty : d.inMermaid.isEmpty = false := by
    obtain ⟨c, hhead, -⟩ := (trim_inMermaid h).head
    obtain ⟨rest, hcons⟩ := List.head?_eq_some_iff.mp hhead
    rw [hcons]
    rfl
  rw [Text.strip_of_trim (trim_inMermaid h), LineKind.ofLine, hempty, if_neg (by decide),
    WrittenDeclaration.inMermaid, hread]

theorem ofLine_message (h : m.WellFormed) :
    LineKind.ofLine (Text.strip m.inMermaid) =
      .message ⟨m.source, m.target, m.label, m.arrow.dashed⟩ := by
  obtain ⟨t, hlabel, hstrip⟩ := exists_strip_inMermaid h
  have hmessage := message?_plainArrow h.isName_source h.isName_target m.arrow.dashed
    m.activation t
  have hdeclaration : declaration? (Text.strip m.inMermaid) = none := by
    rw [hstrip]
    cases m.arrow.dashed <;> exact declaration?_append h.isName_source _
  have hempty : (Text.strip m.inMermaid).isEmpty = false := by
    rw [hstrip]
    simp [h.isName_source.ne_nil]
  rw [LineKind.ofLine, hempty, if_neg (by decide), hdeclaration]
  simp only [hstrip, hmessage, hlabel]

/-! ## A declaration and a message -/

/-- The outline of a declaration and a message to what it declares. -/
theorem outlineWith_declared (hd : d.WellFormed) (hm : m.WellFormed) (hsource : m.source ≠ d.name)
    (htarget : m.target = d.name) (strict : Bool) :
    outlineWith strict (diagram [d.inMermaid, m.inMermaid]) =
      .ok ⟨[⟨d.name, some d.shownLabel, d.isActor⟩, ⟨m.source, none, false⟩],
        [⟨0, ⟨m.source, d.name, m.label, m.arrow.dashed⟩⟩]⟩ := by
  have hlines : trimmedLines (diagram [d.inMermaid, m.inMermaid]) =
      [PlantUml.header, Text.strip d.inMermaid, Text.strip m.inMermaid] := by
    refine PlantUml.trimmedLines_diagram fun l hl => ?_
    rcases List.mem_cons.mp hl with rfl | hl
    · exact hd.newline_notMem_inMermaid
    · rw [List.mem_singleton.mp hl]
      exact newline_notMem_inMermaid hm
  have hheader : LineKind.ofLine PlantUml.header = .structural := by decide
  have hkinds : lineKinds (diagram [d.inMermaid, m.inMermaid]) =
      [.structural, .declaration ⟨d.name, some d.shownLabel, d.isActor⟩,
        .message ⟨m.source, d.name, m.label, m.arrow.dashed⟩] := by
    rw [lineKinds, hlines]
    simp only [List.map_cons, List.map_nil, hheader, ofLine_declaration hd, ofLine_message hm,
      htarget]
  have hname : d.name.isEmpty = false := List.isEmpty_eq_false_iff.mpr hd.name.ne_nil
  have hother : m.source.isEmpty = false := List.isEmpty_eq_false_iff.mpr hm.isName_source.ne_nil
  have hmessages : messages (diagram [d.inMermaid, m.inMermaid]) =
      [⟨m.source, d.name, m.label, m.arrow.dashed⟩] := by
    rw [messages, hkinds]
    rfl
  -- The message mentions its source and its target, and the target is declared.
  have hparticipants : participants (diagram [d.inMermaid, m.inMermaid]) =
      [⟨d.name, some d.shownLabel, d.isActor⟩, ⟨m.source, none, false⟩] := by
    simp [participants, hkinds, LineKind.mentions, addParticipant, hname, hother,
      Ne.symm hsource]
  have houtline : outline (diagram [d.inMermaid, m.inMermaid]) =
      ⟨[⟨d.name, some d.shownLabel, d.isActor⟩, ⟨m.source, none, false⟩],
        [⟨0, ⟨m.source, d.name, m.label, m.arrow.dashed⟩⟩]⟩ := by
    rw [outline, hmessages, hparticipants]
    rfl
  have hknown : firstUnrecognized? 1 (trimmedLines (diagram [d.inMermaid, m.inMermaid])) =
      none := by
    simp [hlines, firstUnrecognized?, hheader, ofLine_declaration hd, ofLine_message hm]
  cases strict with
  | false => simp only [outlineWith, Bool.false_eq_true, if_false, houtline]
  | true => simp only [outlineWith, outlineStrict, if_true, hknown, houtline]

/-- The Mermaid text of a declaration and a message line in front of which it stands. -/
theorem convertWith_declared (hd : d.WellFormed) (hb : Text.IsName b) (hdirective : ¬ IsDirective b)
    (ht : .char '\n' ∉ t) (strict : Bool) :
    PlantUml.convertWith strict (d.text ++ .char '\n' ::
      messageLine b d.name t ⟨false, false⟩ false) =
      .ok (diagram [d.inMermaid,
        (plainMessage b d.name (.char ' ' :: t) ⟨false, false⟩ false).inMermaid]) := by
  have hlines : trimmedLines (d.text ++ .char '\n' :: messageLine b d.name t ⟨false, false⟩ false) =
      [d.text, Text.strip (messageLine b d.name t ⟨false, false⟩ false)] := by
    have hmessage := PlantUml.newline_notMem_messageLine ⟨false, false⟩ false hb hd.name ht
    rw [trimmedLines, Text.lines_append_cons, Text.lines_eq_singleton hd.newline_notMem_text,
      Text.lines_eq_singleton hmessage]
    simp only [List.singleton_append, List.map_cons, List.map_nil,
      Text.strip_of_trim hd.trim_text]
  -- A declaration leaves the converter in its neutral state, so the message is read there too.
  have hstep := (PlantUml.neutralStep_messageLine ⟨false, false⟩ false hb hd.name ht).1 hdirective
  have hverdicts : PlantUml.verdicts .neutral
      [d.text, Text.strip (messageLine b d.name t ⟨false, false⟩ false)] =
        [.converted d.inMermaid,
          .converted (plainMessage b d.name (.char ' ' :: t) ⟨false, false⟩ false).inMermaid] := by
    simp only [PlantUml.verdicts, PlantUml.step, hd.neutralStep_text, hstep]
  have hconvert : PlantUml.convert (d.text ++ .char '\n' ::
      messageLine b d.name t ⟨false, false⟩ false) =
      diagram [d.inMermaid,
        (plainMessage b d.name (.char ' ' :: t) ⟨false, false⟩ false).inMermaid] := by
    rw [PlantUml.convert, hlines, hverdicts]
    rfl
  cases strict with
  | false => simp only [PlantUml.convertWith, Bool.false_eq_true, if_false, hconvert]
  | true =>
      simp only [PlantUml.convertWith, if_true, PlantUml.convertStrict, hlines, hverdicts,
        PlantUml.firstUnrecognized?, hconvert]

/-- What a declaration declares reaches the outline under its short name, with its label
and its kind, and a message to that name makes no second participant of it. -/
theorem readDiagram_declaration (hd : d.WellFormed) (hb : Text.IsName b) (hother : b ≠ d.name)
    (hdirective : ¬ IsDirective b) (ht : .char '\n' ∉ t) :
    PlantUml.convertDeclaration? d.text = some d.inMermaid ∧
      ∀ strict, readDiagram strict plantUmlMode
        (d.text ++ .char '\n' :: messageLine b d.name t ⟨false, false⟩ false) =
          .ok (diagram [d.inMermaid,
            (plainMessage b d.name (.char ' ' :: t) ⟨false, false⟩ false).inMermaid],
          ⟨[⟨d.name, some d.shownLabel, d.isActor⟩, ⟨b, none, false⟩],
            [⟨0, ⟨b, d.name, Text.strip t, false⟩⟩]⟩) := by
  refine ⟨hd.convertDeclaration?_text, fun strict => ?_⟩
  let m := plainMessage b d.name (.char ' ' :: t) ⟨false, false⟩ false
  have hm : m.WellFormed :=
    PlantUml.wellFormed_plainMessage ⟨false, false⟩ false hb hd.name
      (PlantUml.newline_notMem_label ht).1
  have hmermaid : mermaidOf strict plantUmlMode
      (d.text ++ .char '\n' :: messageLine b d.name t ⟨false, false⟩ false) =
        .ok (diagram [d.inMermaid, m.inMermaid]) := by
    rw [mermaidOf, if_pos rfl, convertWith_declared hd hb hdirective ht]
  -- The blank that is written behind the colon is trimmed.
  have hlabel : m.label = Text.strip t := by
    change Text.strip (.char ' ' :: t) = Text.strip t
    rw [← Text.strip_dropBlanks, Text.dropBlanks_cons_of_isBlank _ (by decide),
      Text.strip_dropBlanks]
  have houtline := outlineWith_declared hd hm hother rfl strict
  rw [hlabel] at houtline
  simp only [readDiagram, hmermaid, houtline]
  rfl

/-- A database whose label has an `as`, an arrow and a colon in it. -/
def ordersStore : WrittenDeclaration where
  keyword := "DATABASE".toText
  label := " orders  as -> rows: all ".toText
  name := "as".toText
  stereotype? := some "table".toText
  colour? := some "AliceBlue".toText

theorem readDiagram_declaration_ordersStore :
    ordersStore.WellFormed ∧
      ordersStore.text =
        "DATABASE \" orders  as -> rows: all \" as as <<table>> #AliceBlue".toText ∧
      PlantUml.convertDeclaration? ordersStore.text =
        some "participant as as orders as -> rows: all".toText ∧
      ∀ strict, readDiagram strict plantUmlMode
        (ordersStore.text ++ .char '\n' :: "participant -> as :  read ".toText) =
          .ok ("sequenceDiagram\n    participant as as orders as -> rows: all\n".toText ++
              "    participant->>as: read".toText,
            ⟨[⟨"as".toText, some "orders as -> rows: all".toText, false⟩,
              ⟨"participant".toText, none, false⟩],
              [⟨0, ⟨"participant".toText, "as".toText, "read".toText, false⟩⟩]⟩) := by
  have hform : ordersStore.WellFormed :=
    { keyword := by decide
      name := ⟨by decide, List.all_eq_true.mp (by decide)⟩
      shown := by decide
      quote_notMem := by decide
      newline_notMem := by decide
      stereotype := by
        rintro _ ⟨⟩
        decide
      colour := by
        rintro _ ⟨⟩
        exact ⟨by decide, List.all_eq_true.mp (by decide)⟩ }
  have hname : Text.IsName "participant".toText := ⟨by decide, List.all_eq_true.mp (by decide)⟩
  have hdirective : ¬ IsDirective "participant".toText := by
    rintro ⟨word, hword, hread⟩
    have hnone : ∀ word ∈ PlantUml.directiveWords,
        Text.afterKeyword? word "participant".toText = none := by decide
    rw [hnone word hword] at hread
    contradiction
  obtain ⟨hconvert, hread⟩ := readDiagram_declaration (t := " read ".toText) hform hname
    (by decide) hdirective (by decide)
  have hmermaid : ordersStore.inMermaid = "participant as as orders as -> rows: all".toText := by
    decide +kernel
  have hline : messageLine "participant".toText ordersStore.name " read ".toText ⟨false, false⟩
      false = "participant -> as :  read ".toText := by
    decide +kernel
  rw [hmermaid] at hconvert
  refine ⟨hform, by decide +kernel, hconvert, fun strict => ?_⟩
  rw [← hline, hread strict]
  exact congrArg Except.ok (by decide +kernel)

end Lifeline.Mermaid
