import Lifeline.Proofs.Mermaid.LineReader
import Lifeline.Proofs.Mermaid.Structure
import Lifeline.Proofs.PlantUml.Emission

/-!
# Converted diagrams read strictly

What the converter writes is known to the strict reader, with one exception.  A name
in double quotes may be all white space or have a colon in it; Mermaid has no quotes,
so such a name cannot be declared, or cannot be found in front of an arrow.  The
reader then refuses a line that the author of the diagram never wrote.
-/

namespace Lifeline.Mermaid

open PlantUml (Gives convertStrict neutralStep trimmedLines)

variable {line out t front back arrow code m : Text} {c : CodePoint}

/-! ## Lines without double quotes in their place -/

/-- The name that the Mermaid line of a message begins with. -/
def originOf (m : PlantUml.Message) : Text :=
  if (PlantUml.ArrowKind.ofText m.arrow).pointsLeft then m.target else m.source

/-- A line declares white space in double quotes, by no other name. -/
def DeclaresBlank (line : Text) : Prop :=
  ∃ d, PlantUml.Declaration.ofLine? line = some d ∧ d.name.inQuotes = true ∧
    Text.isBlankText d.name.text = true ∧ d.otherName? = none

/-- A line is a message that comes from a name in double quotes which is all white space
or has a colon. -/
def ComesFromHidden (line : Text) : Prop :=
  ∃ m, PlantUml.Message.ofLine? line = some m ∧ .char '"' :: (originOf m ++ [.char '"']) <:+: line ∧
    (Text.isBlankText (originOf m) = true ∨ .char ':' ∈ originOf m)

/-- A line means something else, or nothing, without its double quotes. -/
def NeedsQuotes (line : Text) : Prop :=
  DeclaresBlank line ∨ ComesFromHidden line

/-! ## What is known -/

theorem ofLine_eq_unrecognized (h : LineKind.ofLine line = .unrecognized) :
    declaration? line = none ∧ ¬ JoinsByArrow line ∧ isStructural line = false := by
  unfold LineKind.ofLine at h
  split at h
  · contradiction
  · split at h
    · contradiction
    · rename_i hdeclaration
      split at h
      · contradiction
      · rename_i hmessage
        split at h
        · contradiction
        · rename_i hstructural
          exact ⟨hdeclaration, message?_eq_none_iff.mp hmessage, eq_false_of_ne_true hstructural⟩

/-! ## Titles, fragments and notes -/

theorem atWordEnd_dropBlanksEnd (hc : Text.isBlank c = true) (t : Text) :
    Text.atWordEnd (Text.dropBlanksEnd (c :: t)) = true := by
  have hstart := Text.dropBlanksEnd_prefix (c :: t)
  cases hback : Text.dropBlanksEnd (c :: t) with
  | nil => rfl
  | cons d back =>
      rw [hback, List.cons_prefix_cons] at hstart
      rw [hstart.1]
      exact atWordEnd_cons_of_isBlank hc back

/-- A word of structure is still in front of the line when the line is trimmed. -/
theorem isStructural_strip (word : Text) (hword : word ∈ structuralWords)
    (hback : back = [] ∨ ∃ t, back = .char ' ' :: t) :
    isStructural (Text.strip (word ++ back)) = true := by
  have hwords : ∀ word ∈ structuralWords, word ≠ [] ∧ word.any Text.isBlank = false ∧
      Text.afterKeyword? word word = some [] := by decide
  obtain ⟨hne, hblank, hself⟩ := hwords word hword
  have htrim : Text.Trim word :=
    Text.trim_of_forall hne fun c hc => eq_false_of_ne_true (List.any_eq_false.mp hblank c hc)
  have hstrip : Text.strip (word ++ back) = word ++ Text.dropBlanksEnd back :=
    Text.strip_append htrim [] back
  rw [hstrip]
  apply isStructural_append hword hself
  rcases hback with rfl | ⟨t, rfl⟩
  · rfl
  · exact atWordEnd_dropBlanksEnd (by decide) t

/-- A text with something that is not blank inside is not blank. -/
theorem isBlankText_around {middle : Text} (hmiddle : Text.isBlankText middle = false)
    (front back : Text) : Text.isBlankText (front ++ middle ++ back) = false := by
  rw [Text.isBlankText] at hmiddle ⊢
  rw [List.all_append, List.all_append, hmiddle, Bool.and_false, Bool.false_and]

theorem isStructural_strip_note (n : PlantUml.Note) :
    isStructural (Text.strip n.toMermaid) = true := by
  have htrim : Text.Trim "Note".toText :=
    ⟨⟨.char 'N', rfl, by decide⟩, ⟨.char 'e', rfl, by decide⟩⟩
  have hcolon : ∀ front rest, Text.isBlankText (front ++ ": ".toText ++ rest) = false :=
    isBlankText_around (by decide)
  have hback : ∃ back, Text.isBlankText back = false ∧
      n.toMermaid = "Note".toText ++ .char ' ' :: back := by
    unfold PlantUml.Note.toMermaid
    split
    · exact ⟨_, hcolon _ _, rfl⟩
    · exact ⟨n.place ++ " of ".toText ++ n.first ++ ": ".toText ++
          Text.replaceAll "\\n".toText "<br/>".toText n.text,
        hcolon _ _, by simp⟩
  obtain ⟨back, hblank, hnote⟩ := hback
  have hstrip : Text.strip ("Note".toText ++ .char ' ' :: back) =
      "Note".toText ++ Text.dropBlanksEnd (.char ' ' :: back) :=
        Text.strip_append htrim [] (.char ' ' :: back)
  rw [hnote, hstrip, Text.dropBlanksEnd_cons hblank]
  exact isStructural_note (by decide) _

/-! ## Declarations -/

/-- A keyword and something behind it declare a participant. -/
theorem exists_declaration? {word : Text}
    (hword : word = "participant".toText ∨ word = "actor".toText)
    (hback : Text.isBlankText back = false) :
    ∃ p, declaration? (word ++ .char ' ' :: back) = some p := by
  have hne : Text.dropBlanks back ≠ [] := by
    rw [ne_eq, Text.dropBlanks_eq_nil_iff, hback]
    decide
  have hend : label? [] = some none := rfl
  obtain ⟨found, hfound⟩ : ∃ found, Text.fewestSome (fun _ => true) label?
      (Text.dropBlanks back ++ []) = some found :=
    Text.exists_fewestSome hne (fun _ _ => rfl) hend
  rw [List.append_nil] at hfound
  have hblanks : Text.afterBlanks? (.char ' ' :: back) = some (Text.dropBlanks back) :=
    Text.afterBlanks?_cons_of_isBlank back (by decide)
  -- The two keywords are tried one after the other, behind the word `create`.
  rcases hword with rfl | rfl
  · have hcreate : Text.after? "create".toText ("participant".toText ++ .char ' ' :: back) =
      none := rfl
    have hafter : Text.after? "participant".toText ("participant".toText ++ .char ' ' :: back) =
        some (.char ' ' :: back) := Text.after?_eq_some_iff.mpr rfl
    simp only [declaration?, declarationHere?, hcreate, hafter, hblanks, hfound, Option.map_some]
    exact ⟨_, rfl⟩
  · have hcreate : Text.after? "create".toText ("actor".toText ++ .char ' ' :: back) = none := rfl
    have hother : Text.after? "participant".toText ("actor".toText ++ .char ' ' :: back) =
        none := rfl
    have hafter : Text.after? "actor".toText ("actor".toText ++ .char ' ' :: back) =
        some (.char ' ' :: back) := Text.after?_eq_some_iff.mpr rfl
    simp only [declaration?, declarationHere?, hcreate, hother, hafter, hblanks, hfound,
      Option.map_some]
    exact ⟨_, rfl⟩

theorem isBlankText_collapseBlanks_strip (ht : Text.isBlankText t = false) :
    Text.isBlankText (Text.collapseBlanks (Text.strip t)) = false := by
  have hne : Text.strip t ≠ [] := by
    rw [ne_eq, Text.strip_eq_nil_iff, ht]
    decide
  obtain ⟨c, hhead, hc⟩ := (Text.trim_strip hne).head
  obtain ⟨rest, hrest⟩ := List.head?_eq_some_iff.mp hhead
  rw [hrest, Text.collapseBlanks, Text.collapseFrom, if_neg (by rw [hc]; decide), Text.isBlankText,
    List.all_cons, hc, Bool.false_and]

/-- The line of a declaration is a keyword and what it declares, which is blank only if the
name is and has no other. -/
theorem exists_toMermaid_declaration (d : PlantUml.Declaration)
    (hname : Text.isBlankText d.name.text = true → d.otherName? ≠ none) :
    ∃ word back, (word = "participant".toText ∨ word = "actor".toText) ∧
      Text.isBlankText back = false ∧ d.toMermaid = word ++ .char ' ' :: back := by
  have hkeyword : ∃ word, (word = "participant".toText ∨ word = "actor".toText) ∧
      (if d.isActor then "actor ".toText else "participant ".toText) = word ++ [.char ' '] := by
    cases d.isActor with
    | true => exact ⟨"actor".toText, Or.inr rfl, rfl⟩
    | false => exact ⟨"participant".toText, Or.inl rfl, rfl⟩
  obtain ⟨word, hword, hkeyword⟩ := hkeyword
  have has : ∀ x y : Text, Text.isBlankText (x ++ " as ".toText ++ y) = false :=
    isBlankText_around (by decide)
  unfold PlantUml.Declaration.toMermaid
  simp only [hkeyword]
  -- With two names the word `as` stands between them, so what is declared is not blank.
  cases hother : d.otherName? with
  | none =>
      have hblank : Text.isBlankText d.name.text = false :=
        eq_false_of_ne_true fun hblank => hname hblank hother
      exact ⟨word, _, hword, isBlankText_collapseBlanks_strip hblank, by simp⟩
  | some other =>
      simp only
      split
      · exact ⟨word, _, hword, has (Text.collapseBlanks (Text.strip d.name.text)) other.text,
          by simp⟩
      · exact ⟨word, _, hword, has other.text (Text.collapseBlanks (Text.strip d.name.text)),
          by simp⟩

theorem exists_declaration?_strip {d : PlantUml.Declaration}
    (hname : Text.isBlankText d.name.text = true → d.otherName? ≠ none) :
    ∃ p, declaration? (Text.strip d.toMermaid) = some p := by
  obtain ⟨word, back, hword, hback, hline⟩ := exists_toMermaid_declaration d hname
  have htrim : Text.Trim word := by
    rcases hword with rfl | rfl
    · exact ⟨⟨'p', rfl, by decide⟩, ⟨'t', rfl, by decide⟩⟩
    · exact ⟨⟨'a', rfl, by decide⟩, ⟨'r', rfl, by decide⟩⟩
  have hstrip :
      Text.strip (word ++ .char ' ' :: back) = word ++ Text.dropBlanksEnd (.char ' ' :: back) :=
    Text.strip_append htrim [] (.char ' ' :: back)
  have hend : Text.isBlankText (Text.dropBlanksEnd back) = false := by
    rw [← Bool.not_eq_true, ← Text.strip_eq_nil_iff, Text.strip_dropBlanksEnd,
      Text.strip_eq_nil_iff, hback]
    decide
  rw [hline, hstrip, Text.dropBlanksEnd_cons hback]
  exact exists_declaration? hword hend

/-! ## Messages -/

/-- An arrow is found whatever stands behind it, but for a colon there. -/
theorem joinsByArrow_append (harrow : arrow ∈ arrows) (hne : front ≠ [])
    (hcolon : .char ':' ∉ front)
    (hc : c ≠ .char ':') (hmem : .char ':' ∈ back) :
    JoinsByArrow (front ++ (arrow ++ c :: back)) := by
  obtain ⟨before, label, rfl, hbefore⟩ := List.eq_append_cons_of_mem hmem
  refine ⟨front, arrow, c :: before, label, harrow, hne, List.cons_ne_nil c before, hcolon, ?_, rfl⟩
  rw [List.mem_cons, not_or]
  exact ⟨Ne.symm hc, hbefore⟩

theorem exists_toMermaid_message (m : PlantUml.Message) : ∃ arrow ∈ arrows, ∃ back label,
    m.toMermaid = originOf m ++ (arrow ++ .char '>' :: (back ++ .char ':' :: label)) := by
  have harrow : ∃ arrow ∈ arrows, ∃ sign, PlantUml.mermaidArrow (.ofText m.arrow) m.activation =
      arrow ++ .char '>' :: sign := by
    unfold PlantUml.mermaidArrow
    cases (PlantUml.ArrowKind.ofText m.arrow).dashed with
    | true => exact ⟨"-->".toText, by decide, _, rfl⟩
    | false => exact ⟨"->".toText, by decide, _, rfl⟩
  have hlabel : ∃ label, (if m.label.isEmpty then [.char ':'] else ": ".toText ++ m.label) =
      .char ':' :: label := by
    split <;> exact ⟨_, rfl⟩
  obtain ⟨arrow, hmem, sign, harrow⟩ := harrow
  obtain ⟨label, hlabel⟩ := hlabel
  -- The head of the arrow is left to the target, which may begin with a colon.
  unfold PlantUml.Message.toMermaid originOf
  simp only [harrow, hlabel]
  cases (PlantUml.ArrowKind.ofText m.arrow).pointsLeft with
  | true => exact ⟨arrow, hmem, sign ++ m.source, label, by simp⟩
  | false => exact ⟨arrow, hmem, sign ++ m.target, label, by simp⟩

theorem joinsByArrow_strip {m : PlantUml.Message} (hblank : Text.isBlankText (originOf m) = false)
    (hcolon : .char ':' ∉ originOf m) : JoinsByArrow (Text.strip m.toMermaid) := by
  obtain ⟨arrow, harrow, back, label, hline⟩ := exists_toMermaid_message m
  have htrim : Text.Trim (arrow ++ .char '>' :: (back ++ [.char ':'])) := by
    obtain ⟨tail, rfl⟩ := exists_cons_of_mem_arrows harrow
    exact ⟨⟨.char '-', rfl, by decide⟩, ⟨.char ':', by simp [List.getLast?_cons], by decide⟩⟩
  -- Trimming shortens the name in front and the label, and no more.
  have hstrip : Text.strip m.toMermaid = Text.dropBlanks (originOf m) ++
      (arrow ++ .char '>' :: (back ++ .char ':' :: Text.dropBlanksEnd label)) := by
    have hwhole := Text.strip_append htrim (originOf m) label
    rw [hline]
    simpa using hwhole
  have hne : Text.dropBlanks (originOf m) ≠ [] := by
    rw [ne_eq, Text.dropBlanks_eq_nil_iff, hblank]
    decide
  rw [hstrip]
  exact joinsByArrow_append harrow hne
    (fun hmem => hcolon ((Text.dropBlanks_suffix _).subset hmem)) (by decide) (by simp)

/-! ## Whole diagrams -/

/-- What a line gives is known if the line can do without its quotes. -/
theorem needsQuotes_of_unrecognized (h : Gives line out)
    (hkind : LineKind.ofLine (Text.strip out) = .unrecognized) : NeedsQuotes line := by
  obtain ⟨hdeclaration, hmessage, hstructural⟩ := ofLine_eq_unrecognized hkind
  have hknown : isStructural (Text.strip out) ≠ true := by
    rw [hstructural]
    decide
  -- Only a declaration and a message can give a line that is not known.
  cases h with
  | @title title _ =>
      refine absurd ?_ hknown
      exact isStructural_strip "title".toText (by decide) (Or.inr ⟨title, rfl⟩)
  | autonumber =>
      refine absurd ?_ hknown
      exact isStructural_strip "autonumber".toText (by decide) (Or.inl rfl)
  | @declaration d hd =>
      by_cases hname : Text.isBlankText d.name.text = true ∧ d.otherName? = none
      · exact Or.inl ⟨d, hd, (PlantUml.Declaration.ofLine?_subset hd).2.2 hname.1, hname⟩
      · obtain ⟨p, hp⟩ := exists_declaration?_strip (not_and.mp hname)
        rw [hp] at hdeclaration
        contradiction
  | @note n _ => exact absurd (isStructural_strip_note n) hknown
  | fragmentEnd =>
      refine absurd ?_ hknown
      exact isStructural_strip "end".toText (by decide) (Or.inl rfl)
  | @fragment word rest hword _ =>
      have hwords : ∀ word ∈ PlantUml.fragmentKeywords, word ∈ structuralWords := by decide
      refine absurd ?_ hknown
      split
      · rw [← List.append_nil word]
        exact isStructural_strip word (hwords word hword) (Or.inl rfl)
      · exact isStructural_strip word (hwords word hword) (Or.inr ⟨rest, rfl⟩)
  | @message m hm =>
      obtain ⟨hsource, htarget, -⟩ := PlantUml.Message.ofLine?_standsIn hm
      have horigin : PlantUml.Message.StandsIn line (originOf m) := by
        unfold originOf
        split
        · exact htarget
        · exact hsource
      have hhidden : Text.isBlankText (originOf m) = true ∨ .char ':' ∈ originOf m := by
        by_contra hplain
        obtain ⟨hblank, hcolon⟩ := not_or.mp hplain
        exact hmessage (joinsByArrow_strip (eq_false_of_ne_true hblank) hcolon)
      exact Or.inr ⟨m, hm, horigin.infix_of_hidden hhidden, hhidden⟩

theorem exists_of_firstUnrecognized? {number : Nat} {ls : List Text} {e : UnrecognizedLine}
    (h : firstUnrecognized? number ls = some e) :
    e.line ∈ ls ∧ LineKind.ofLine e.line = .unrecognized := by
  rw [firstUnrecognized?_eq] at h
  obtain ⟨before, line, behind, rfl, rfl, -, hunknown⟩ := LineReader.exists_of_refused? h
  refine ⟨?_, by simpa [outliner] using hunknown⟩
  exact List.mem_append_right before List.mem_cons_self

/-- A diagram that is converted strictly is then read strictly, or the line that the reader
refuses comes from a line of the diagram that needs its quotes. -/
theorem outlineStrict_of_convertStrict (h : convertStrict code = .ok m) :
    (∃ o, outlineStrict m = .ok o) ∨
      ∃ line ∈ trimmedLines code, NeedsQuotes line ∧ ∃ out number,
        (neutralStep line).2 = .converted out ∧
          outlineStrict m = .error ⟨Text.strip out, number⟩ := by
  cases hread : outlineStrict m with
  | ok o => exact Or.inl ⟨o, rfl⟩
  | error e =>
      have hfirst : firstUnrecognized? 1 (trimmedLines m) = some e := by
        unfold outlineStrict at hread
        split at hread
        · rename_i found hfound
          rw [hfound, Except.error.inj hread]
        · contradiction
      obtain ⟨hmem, hkind⟩ := exists_of_firstUnrecognized? hfirst
      rw [← PlantUml.convert_eq_of_convertStrict h] at hmem
      -- The refused line is no header, so some line of the diagram gave it.
      rcases PlantUml.mem_trimmedLines_convert hmem with hheader | ⟨line, hline, out, hstep, hout⟩
      · rw [hheader] at hkind
        exact absurd hkind (by decide)
      · rw [hout] at hkind
        have hneeds := needsQuotes_of_unrecognized (PlantUml.gives_of_neutralStep hstep) hkind
        refine Or.inr ⟨line, hline, hneeds, out, e.number, hstep, ?_⟩
        rw [← hout]

/-- A diagram with a name in double quotes. -/
def gatewayDiagram : Text :=
  "participant \"API Gateway\" as A\n\"A\" -> B : x".toText

/-- The Mermaid text of that diagram. -/
def gatewayMermaid : Text :=
  "sequenceDiagram\n    participant A as API Gateway\n    A->>B: x".toText

theorem outlineStrict_of_convertStrict_gateway :
    convertStrict gatewayDiagram = .ok gatewayMermaid ∧
      ((∃ o, outlineStrict gatewayMermaid = .ok o) ∨
        ∃ line ∈ trimmedLines gatewayDiagram, NeedsQuotes line ∧ ∃ out number,
          (neutralStep line).2 = .converted out ∧
            outlineStrict gatewayMermaid = .error ⟨Text.strip out, number⟩) := by
  have hconvert : convertStrict gatewayDiagram = .ok gatewayMermaid := by rfl
  exact ⟨hconvert, outlineStrict_of_convertStrict hconvert⟩

/-- A name with a colon loses its quotes, and the message is refused as a second line of a
diagram that has one. -/
theorem outlineStrict_refuses_converted :
    trimmedLines "\"a:b\" -> C : t".toText = ["\"a:b\" -> C : t".toText] ∧
      convertStrict "\"a:b\" -> C : t".toText = .ok "sequenceDiagram\n    a:b->>C: t".toText ∧
      outlineStrict "sequenceDiagram\n    a:b->>C: t".toText = .error ⟨"a:b->>C: t".toText, 2⟩ ∧
      readDiagram true plantUmlMode "\"a:b\" -> C : t".toText =
        .error ⟨"a:b->>C: t".toText, 2⟩ :=
  ⟨rfl, rfl, rfl, rfl⟩

end Lifeline.Mermaid
