import Lifeline.Proofs.PlantUml.Directives
import Lifeline.Proofs.PlantUml.Emission
import Lifeline.Proofs.Text.Keywords

/-!
# Declarations with a label

A declaration of a label in double quotes and a short name is read as the two, whatever
stereotype and colour stand behind them.  Mermaid has the short name first, and the label
is shown on the rest of the line, so it is trimmed and its white space becomes single
spaces.
-/

namespace Lifeline

namespace PlantUml

variable {t name rest behind : Text} {c : CodePoint}

/-- A declaration with its label in double quotes and a short name, as it is written. -/
structure WrittenDeclaration where
  /-- The keyword, in any case. -/
  keyword : Text
  label : Text
  name : Text
  stereotype? : Option Text
  colour? : Option Text

namespace WrittenDeclaration

/-- The keyword is one of the keywords but for its case, and the label is one line with
something to show. -/
structure WellFormed (d : WrittenDeclaration) : Prop where
  keyword : d.keyword.map CodePoint.toLower ∈ declarationKeywords
  name : Text.IsName d.name
  shown : Text.isBlankText d.label = false
  quote_notMem : .char '"' ∉ d.label
  newline_notMem : .char '\n' ∉ d.label
  stereotype : ∀ s, d.stereotype? = some s → .char '>' ∉ s ∧ .char '\n' ∉ s
  colour : ∀ w, d.colour? = some w → Text.IsName w

variable (d : WrittenDeclaration)

/-- The stereotype with its brackets, or nothing. -/
def stereotypeText : Text :=
  match d.stereotype? with
  | none => []
  | some s => " <<".toText ++ (s ++ ">>".toText)

/-- The colour with its number sign, or nothing. -/
def colourText : Text :=
  match d.colour? with
  | none => []
  | some w => " #".toText ++ w

/-- What stands behind the label. -/
def ending : Text :=
  " as ".toText ++ (d.name ++ (d.stereotypeText ++ d.colourText))

/-- The declaration as it is written. -/
def text : Text :=
  d.keyword ++ .char ' ' :: .char '"' :: (d.label ++ .char '"' :: d.ending)

/-- Actors are the only kind that Mermaid knows besides participants. -/
def isActor : Bool :=
  d.keyword.map CodePoint.toLower == "actor".toText

/-- The label as it is shown: trimmed, with single spaces. -/
def shownLabel : Text :=
  Text.collapseBlanks (Text.strip d.label)

/-- The Mermaid line of the declaration. -/
def inMermaid : Text :=
  (if d.isActor then "actor ".toText else "participant ".toText) ++
    (d.name ++ (" as ".toText ++ d.shownLabel))

variable {d}

/-! ## Reading -/

theorem stereotypeText_append_eq (d : WrittenDeclaration) :
    d.stereotypeText ++ d.colourText = [] ∨
      ∃ u, d.stereotypeText ++ d.colourText = .char ' ' :: u := by
  unfold stereotypeText colourText
  cases d.stereotype? with
  | some s => exact Or.inr ⟨_, rfl⟩
  | none =>
      cases d.colour? with
      | some w => exact Or.inr ⟨_, rfl⟩
      | none => exact Or.inl rfl

theorem isWordChar_of_isWord (hc : Text.isWord c = true) : Declaration.isWordChar c = true := by
  have hne : ∀ d, Text.isWord d = false → (c == d) = false := fun d hd =>
    beq_eq_false_iff_ne.mpr (Text.ne_of_isWord hc hd)
  rw [Declaration.isWordChar, Declaration.isMark, Text.isBlank_of_isWord hc,
    hne '"' (by decide), hne '#' (by decide), hne '<' (by decide), hne ':' (by decide),
    hne '>' (by decide)]
  rfl

/-- A short name ends at the end or at the space in front of what follows. -/
theorem span_isWordChar (hname : Text.IsName name)
    (hrest : rest = [] ∨ ∃ u, rest = .char ' ' :: u) :
    (name ++ rest).span Declaration.isWordChar = (name, rest) := by
  refine Text.span_append (fun c hc => isWordChar_of_isWord (hname.isWord c hc)) ?_
  rintro c hhead
  rcases hrest with rfl | ⟨u, rfl⟩
  · contradiction
  · obtain rfl := Option.some.inj hhead
    decide

theorem readAlias?_append (hname : Text.IsName name)
    (hrest : rest = [] ∨ ∃ u, rest = .char ' ' :: u) :
    Declaration.readAlias? (" as ".toText ++ (name ++ rest)) = some (⟨name, false⟩, rest) := by
  have hspan := span_isWordChar hname hrest
  obtain ⟨c, tail, rfl, hc⟩ := hname.exists_cons
  have hfront : Text.afterBlanks? (" as ".toText ++ (c :: tail ++ rest)) =
      some ("as ".toText ++ (c :: tail ++ rest)) := rfl
  have hword : Text.afterKeyword? "as".toText ("as ".toText ++ (c :: tail ++ rest)) =
      some (.char ' ' :: (c :: tail ++ rest)) := rfl
  have hblanks : Text.afterBlanks? (.char ' ' :: (c :: tail ++ rest)) =
      some (c :: tail ++ rest) := by
    rw [Text.afterBlanks?_cons_of_isBlank _ (by decide), List.cons_append,
      Text.dropBlanks_cons_of_not_isBlank _ (Text.isBlank_of_isWord hc)]
  have hquoted : Text.quoted? (c :: tail ++ rest) = none :=
    Text.quoted?_cons (Text.ne_of_isWord hc (by decide)) _
  simp only [Declaration.readAlias?, hfront, hword, hblanks, hquoted, hspan]

theorem WellFormed.skipStereotype_eq (h : d.WellFormed) :
    Declaration.skipStereotype (d.stereotypeText ++ d.colourText) = d.colourText := by
  unfold stereotypeText
  cases hsome : d.stereotype? with
  | none =>
      unfold colourText
      cases d.colour? with
      | none => rfl
      | some w => rfl
  | some s =>
      have hfront : Text.afterBlanks? (" <<".toText ++ (s ++ ">>".toText) ++ d.colourText) =
          some (.char '<' :: .char '<' :: (s ++ ">>".toText ++ d.colourText)) := rfl
      have hdrop : (s ++ ">>".toText ++ d.colourText).dropWhile (fun c => decide (c ≠ .char '>')) =
          .char '>' :: .char '>' :: d.colourText := by
        rw [List.append_assoc,
          List.dropWhile_append_of_pos (Text.forall_ne_of_notMem (h.stereotype s hsome).1)]
        rfl
      simp only [Declaration.skipStereotype, hfront, hdrop]

theorem WellFormed.skipColour_eq (h : d.WellFormed) : Declaration.skipColour d.colourText = [] := by
  unfold colourText
  cases hsome : d.colour? with
  | none => rfl
  | some w =>
      have hword : Text.word? w = some (w, []) :=
        Text.word?_eq_some_iff.mpr ⟨(List.append_nil w).symm, h.colour w hsome, rfl⟩
      have hfront : Text.afterBlanks? (" #".toText ++ w) = some (.char '#' :: w) := rfl
      simp only [Declaration.skipColour, hfront, hword]

theorem WellFormed.ending?_ending (h : d.WellFormed) :
    Declaration.ending? d.ending = some (some ⟨d.name, false⟩) := by
  have hends : Declaration.endsHere (d.stereotypeText ++ d.colourText) = true := by
    rw [Declaration.endsHere, h.skipStereotype_eq, h.skipColour_eq]
    rfl
  rw [Declaration.ending?, ending, readAlias?_append h.name d.stereotypeText_append_eq]
  simp only [hends, if_true]

theorem WellFormed.label_ne_nil (h : d.WellFormed) : d.label ≠ [] := by
  intro hnil
  have hshown := h.shown
  rw [hnil] at hshown
  contradiction

theorem areApart_declarationKeywords : Text.AreApart declarationKeywords :=
  ⟨by decide, by decide⟩

/-- A declaration is read as its label and its short name, whatever follows them. -/
theorem WellFormed.ofLine?_text (h : d.WellFormed) :
    Declaration.ofLine? d.text = some ⟨d.isActor, ⟨d.label, true⟩, some ⟨d.name, false⟩⟩ := by
  have hspells := Text.spells_of_map_toLower (u := d.keyword) rfl
  have hkeyword := hspells.keyword?_append areApart_declarationKeywords h.keyword
    (.char ' ' :: .char '"' :: (d.label ++ .char '"' :: d.ending))
  have hblanks : Text.afterBlanks? (.char ' ' :: .char '"' :: (d.label ++ .char '"' :: d.ending)) =
      some (.char '"' :: (d.label ++ .char '"' :: d.ending)) := rfl
  have hquoted := Text.quoted?_append h.label_ne_nil h.quote_notMem d.ending
  simp only [Declaration.ofLine?, text, hkeyword, hblanks, Declaration.nameAndEnding?, hquoted,
    h.ending?_ending, Option.map_some]
  rfl

theorem WellFormed.convertDeclaration?_text (h : d.WellFormed) :
    convertDeclaration? d.text = some d.inMermaid := by
  rw [convertDeclaration?, h.ofLine?_text, Option.map_some, Declaration.toMermaid]
  simp only [Bool.false_and, Bool.false_eq_true, if_false, inMermaid, shownLabel,
    List.append_assoc]

/-! ## The label -/

theorem WellFormed.trim_shownLabel (h : d.WellFormed) : Text.Trim d.shownLabel := by
  have hne : Text.strip d.label ≠ [] := by
    rw [ne_eq, Text.strip_eq_nil_iff, h.shown]
    decide
  exact (Text.trim_strip hne).collapseBlanks

/-! ## The line in a diagram -/

theorem WellFormed.newline_notMem_keyword (h : d.WellFormed) : .char '\n' ∉ d.keyword := by
  intro hmem
  have hlower : (CodePoint.char '\n').toLower ∈ d.keyword.map CodePoint.toLower :=
    List.mem_map_of_mem hmem
  have hnone : ∀ word ∈ declarationKeywords, (CodePoint.char '\n').toLower ∉ word := by decide
  exact hnone _ h.keyword hlower

theorem WellFormed.newline_notMem_ending (h : d.WellFormed) : .char '\n' ∉ d.ending := by
  have hname := h.name.notMem (d := '\n') (by decide)
  have hstereotype : .char '\n' ∉ d.stereotypeText := by
    unfold stereotypeText
    cases hsome : d.stereotype? with
    | none => exact List.not_mem_nil
    | some s => simp [(h.stereotype s hsome).2]
  have hcolour : .char '\n' ∉ d.colourText := by
    unfold colourText
    cases hsome : d.colour? with
    | none => exact List.not_mem_nil
    | some w => simp [(h.colour w hsome).notMem (d := '\n') (by decide)]
  simp [ending, hname, hstereotype, hcolour]

theorem WellFormed.newline_notMem_text (h : d.WellFormed) : .char '\n' ∉ d.text := by
  simp [text, h.newline_notMem_keyword, h.newline_notMem, h.newline_notMem_ending]

/-- A declaration ends with its colour, the brackets of its stereotype or its name. -/
theorem WellFormed.exists_getLast?_ending (h : d.WellFormed) :
    ∃ c, d.ending.getLast? = some c ∧ Text.isBlank c = false := by
  have hword : ∀ {w : Text}, Text.IsName w → ∀ front,
      ∃ c, (front ++ w).getLast? = some c ∧ Text.isBlank c = false := by
    intro w hw front
    obtain ⟨c, hlast, hc⟩ := hw.trim.last
    exact ⟨c, by rw [List.getLast?_append, hlast]; rfl, hc⟩
  unfold ending stereotypeText colourText
  cases hcolour : d.colour? with
  | some w =>
      simp only [← List.append_assoc]
      exact hword (h.colour w hcolour) _
  | none =>
      cases d.stereotype? with
      | some s =>
          let front := " as ".toText ++ (d.name ++ (" <<".toText ++ (s ++ [.char '>'])))
          exact ⟨'>', List.getLast?_eq_some_iff.mpr ⟨front, by simp [front]⟩, by decide⟩
      | none =>
          simp only [List.append_nil]
          exact hword h.name _

theorem WellFormed.exists_cons (h : d.WellFormed) :
    ∃ c t, d.text = c :: t ∧ Text.isWord c = true := by
  have hspells := Text.spells_of_map_toLower (u := d.keyword) rfl
  have hword := areApart_declarationKeywords.isKeyword _ h.keyword
  have hne : d.keyword.map CodePoint.toLower ≠ [] := by
    intro hnil
    have hmem := h.keyword
    rw [hnil] at hmem
    exact absurd hmem (by decide)
  obtain ⟨c, v, hcons, hc⟩ := hspells.exists_cons hword hne
  exact ⟨c, v ++ .char ' ' :: .char '"' :: (d.label ++ .char '"' :: d.ending), by
    rw [text, hcons]; rfl, hc⟩

theorem WellFormed.trim_text (h : d.WellFormed) : Text.Trim d.text where
  head := by
    obtain ⟨c, t, hcons, hc⟩ := h.exists_cons
    exact ⟨c, by rw [hcons]; rfl, Text.isBlank_of_isWord hc⟩
  last := by
    obtain ⟨c, hlast, hc⟩ := h.exists_getLast?_ending
    exact ⟨c, by simp [text, List.getLast?_append, List.getLast?_cons, hlast], hc⟩

/-- The keyword of a declaration is the word of no directive. -/
theorem WellFormed.afterKeyword?_eq_none (h : d.WellFormed) {other : Text}
    (hother : other ∈ directiveWords) : Text.afterKeyword? other d.text = none := by
  have hapart : ∀ word ∈ declarationKeywords, ∀ other ∈ directiveWords,
      Text.IsKeyword other ∧ ¬ word <+: other ∧ ¬ other <+: word := by decide
  obtain ⟨hletters, hprefixes⟩ := hapart _ h.keyword other hother
  exact (Text.spells_of_map_toLower rfl).afterKeyword?_eq_none
    (areApart_declarationKeywords.isKeyword _ h.keyword) hletters hprefixes _

/-- A declaration gives its Mermaid line wherever the converter is neutral. -/
theorem WellFormed.neutralStep_text (h : d.WellFormed) :
    neutralStep d.text = (.neutral, .converted d.inMermaid) := by
  have hwords : ∀ word ∈ directiveWords, Text.afterKeyword? word d.text = none :=
    fun word hword => h.afterKeyword?_eq_none hword
  have hconvert := h.convertDeclaration?_text
  obtain ⟨c, t, hcons, hc⟩ := h.exists_cons
  rw [hcons] at hwords hconvert ⊢
  rw [neutralStep_eq_drawing hc hwords, drawing, hconvert]

theorem WellFormed.newline_notMem_inMermaid (h : d.WellFormed) : .char '\n' ∉ d.inMermaid :=
  (gives_of_neutralStep (congrArg Prod.snd h.neutralStep_text)).newline_notMem h.newline_notMem_text

end WrittenDeclaration
end PlantUml
end Lifeline
