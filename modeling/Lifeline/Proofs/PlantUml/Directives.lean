import Lifeline.PlantUml.Conversion
import Lifeline.Proofs.PlantUml.Message

/-!
# Messages that are taken for directives

A line that begins with a name and an arrow is no declaration, no note and no
fragment, whatever word the name is: an arrow can stand behind none of their
keywords.  Directives are recognised by their word alone, so a message from a
participant whose name is such a word is lost.  Every other message is converted.
-/

namespace Lifeline.PlantUml

variable {name rest word behind left t : Text} {c : CodePoint}

/-- The words of the directives that style a diagram. -/
def styleWords : List Text :=
  ["skinparam".toText, "hide".toText, "show".toText, "scale".toText]

/-- The words of the directives: those of style, the title, and the switch of message
numbers. -/
def directiveWords : List Text :=
  styleWords ++ ["title".toText, "autonumber".toText]

/-- A name is the word of a directive, without regard to case. -/
def IsDirective (name : Text) : Prop :=
  ∃ word ∈ directiveWords, Text.afterKeyword? word name = some []

/-- The text begins with a hyphen or an angle bracket, as arrows do. -/
def OpensArrow (t : Text) : Prop :=
  ∃ c tail, t = c :: tail ∧ (c = '-' ∨ c = '<')

/-! ## A name and a space -/

theorem isLetter_space {w : CodePoint} (hw : w ≠ .char ' ') :
    Text.isLetter w (.char ' ') = false := by
  have hlower : CodePoint.toLower (.char ' ') = .char ' ' := rfl
  simp [Text.isLetter, hlower, Ne.symm hw]

/-- A keyword without a space reaches into the name only. -/
theorem afterKeyword?_append_space (hword : .char ' ' ∉ word) (name rest : Text) :
    Text.afterKeyword? word (name ++ .char ' ' :: rest) =
      (Text.afterKeyword? word name).map fun left => left ++ .char ' ' :: rest := by
  apply Text.afterKeyword?_append
  intro w hw
  apply isLetter_space
  rintro rfl
  exact hword hw

theorem exists_of_afterKeyword? (hword : .char ' ' ∉ word)
    (h : Text.afterKeyword? word (name ++ .char ' ' :: rest) = some behind) :
    ∃ left, Text.afterKeyword? word name = some left ∧ behind = left ++ .char ' ' :: rest := by
  rw [afterKeyword?_append_space hword, Option.map_eq_some_iff] at h
  obtain ⟨left, hleft, rfl⟩ := h
  exact ⟨left, hleft, rfl⟩

theorem isWord_of_afterKeyword? (hname : ∀ b ∈ name, Text.isWord b = true)
    (h : Text.afterKeyword? word name = some left) : ∀ b ∈ left, Text.isWord b = true :=
  fun b hb => hname b ((Text.afterKeyword?_suffix h).subset hb)

/-- The word of a line is a keyword when the name is. -/
theorem matchesWord_iff (hname : ∀ b ∈ name, Text.isWord b = true) (hword : .char ' ' ∉ word) :
    (match Text.afterKeyword? word (name ++ .char ' ' :: rest) with
      | some behind => Text.atWordEnd behind
      | none => false) = true ↔ Text.afterKeyword? word name = some [] := by
  constructor
  · intro h
    split at h
    · rename_i behind hbehind
      obtain ⟨left, hleft, rfl⟩ := exists_of_afterKeyword? hword hbehind
      rw [Text.atWordEnd_append (isWord_of_afterKeyword? hname hleft) (by decide)] at h
      rw [hleft, List.isEmpty_iff.mp h]
    · contradiction
  · intro h
    rw [afterKeyword?_append_space hword, h]
    rfl

theorem OpensArrow.dropBlanks (h : OpensArrow rest) : Text.dropBlanks rest = rest := by
  obtain ⟨c, tail, rfl, rfl | rfl⟩ := h
  · exact Text.dropBlanks_cons_of_not_isBlank tail (by decide)
  · exact Text.dropBlanks_cons_of_not_isBlank tail (by decide)

/-- White space follows what is left of a name only when nothing is left. -/
theorem afterBlanks?_eq_some (hleft : ∀ b ∈ left, Text.isWord b = true) (hrest : OpensArrow rest)
    (h : Text.afterBlanks? (left ++ .char ' ' :: rest) = some behind) :
    left = [] ∧ behind = rest := by
  cases left with
  | nil =>
      rw [List.nil_append, Text.afterBlanks?_cons_of_isBlank _ (by decide), hrest.dropBlanks] at h
      exact ⟨rfl, (Option.some.inj h).symm⟩
  | cons b left =>
      have hb := Text.isBlank_of_isWord (hleft b List.mem_cons_self)
      rw [List.cons_append, Text.afterBlanks?_cons_of_not_isBlank _ hb] at h
      contradiction

/-! ## What a name and an arrow are not -/

section

variable (hname : Text.IsName name) (hrest : OpensArrow rest)
include hname hrest

theorem convertDeclaration?_eq_none : convertDeclaration? (name ++ .char ' ' :: rest) = none := by
  have hending : Declaration.nameAndEnding? rest = none := by
    obtain ⟨c, tail, rfl, rfl | rfl⟩ := hrest
    · rfl
    · rfl
  have hspaces : ∀ word ∈ declarationKeywords, .char ' ' ∉ word := by decide
  rw [convertDeclaration?, Declaration.ofLine?]
  cases hkeyword : Text.keyword? declarationKeywords (name ++ .char ' ' :: rest) with
  | none => rfl
  | some found =>
      obtain ⟨word, hword, hread⟩ := List.exists_of_findSome?_eq_some hkeyword
      obtain ⟨behind, hbehind, rfl⟩ := Option.map_eq_some_iff.mp hread
      obtain ⟨left, hleft, rfl⟩ := exists_of_afterKeyword? (hspaces word hword) hbehind
      cases hblanks : Text.afterBlanks? (left ++ .char ' ' :: rest) with
      | none => simp only [hblanks, Option.map_none]
      | some behind =>
          -- The name is the keyword, and an arrow begins no name.
          obtain ⟨-, rfl⟩ := afterBlanks?_eq_some
            (isWord_of_afterKeyword? hname.isWord hleft) hrest hblanks
          simp only [hblanks, hending, Option.map_none]

theorem place?_eq_none : Note.place? (name ++ .char ' ' :: rest) = none := by
  have hplace : Text.keyword? notePlaces rest = none := by
    obtain ⟨c, tail, rfl, rfl | rfl⟩ := hrest
    · rfl
    · rfl
  -- Behind the word `note`, wherever it ends in the name, the next word is the arrow.
  have hread : ∀ u behind, (∀ b ∈ u, Text.isWord b = true) →
      Text.afterKeyword? "note".toText (u ++ .char ' ' :: rest) = some behind →
        ∀ word, Text.afterBlanks? behind = some word → word = rest := by
    intro u behind hu hbehind word hword
    obtain ⟨left, hleft, rfl⟩ := exists_of_afterKeyword? (by decide) hbehind
    exact (afterBlanks?_eq_some (isWord_of_afterKeyword? hu hleft) hrest hword).2
  have hnote : ∀ behind, Note.afterNote? (name ++ .char ' ' :: rest) = some behind →
      ∀ word, Text.afterBlanks? behind = some word → word = rest := by
    obtain ⟨c, tail, rfl⟩ := List.exists_cons_of_ne_nil hname.ne_nil
    intro behind hbehind
    rw [List.cons_append, Note.afterNote?] at hbehind
    split at hbehind
    · exact hread tail behind (fun b hb => hname.isWord b (List.mem_cons_of_mem c hb)) hbehind
    · exact hread (c :: tail) behind hname.isWord hbehind
  unfold Note.place?
  cases hafter : Note.afterNote? (name ++ .char ' ' :: rest) with
  | none => rfl
  | some behind =>
      cases hblanks : Text.afterBlanks? behind with
      | none => simp only [hblanks]
      | some word => simp only [hblanks, hnote behind hafter word hblanks, hplace, Option.map_none]

theorem ends_eq_false : Note.ends (name ++ .char ' ' :: rest) = false := by
  unfold Note.ends
  cases hafter : Text.afterKeyword? "end".toText (name ++ .char ' ' :: rest) with
  | none => rfl
  | some behind =>
      obtain ⟨left, hleft, rfl⟩ := exists_of_afterKeyword? (by decide) hafter
      -- Behind the word `end` stands the arrow, or more of the name and then the arrow.
      cases left with
      | nil =>
          have hdrop : Text.dropBlanks ([] ++ .char ' ' :: rest) = rest := by
            rw [List.nil_append, Text.dropBlanks_cons_of_isBlank _ (by decide), hrest.dropBlanks]
          have hnote : Text.afterKeyword? "note".toText rest = none := by
            obtain ⟨c, tail, rfl, rfl | rfl⟩ := hrest
            · rfl
            · rfl
          simp only [hdrop, hnote]
      | cons b left =>
          have hb := isWord_of_afterKeyword? hname.isWord hleft b List.mem_cons_self
          have hdrop :
              Text.dropBlanks (b :: left ++ .char ' ' :: rest) = b :: left ++ .char ' ' :: rest :=
            Text.dropBlanks_cons_of_not_isBlank _ (Text.isBlank_of_isWord hb)
          cases hnote : Text.afterKeyword? "note".toText (b :: left ++ .char ' ' :: rest) with
          | none => simp only [hdrop, hnote]
          | some last =>
              obtain ⟨more, -, rfl⟩ := exists_of_afterKeyword? (by decide) hnote
              simp only [hdrop, hnote]
              exact List.isEmpty_eq_false_iff.mpr (List.append_ne_nil_of_right_ne_nil _ (by simp))

theorem convertFragment?_eq_none (harrow : beginsWithArrow rest = true)
    (hline : .char '\n' ∉ rest) :
    convertFragment? (name ++ .char ' ' :: rest) = none := by
  have hcloses : closesFragment (name ++ .char ' ' :: rest) = false := by
    have hne : ∀ u : Text, .char ' ' ∉ u → (name ++ .char ' ' :: rest == u) = false := by
      intro u hu
      apply beq_eq_false_iff_ne.mpr
      rintro rfl
      exact hu (List.mem_append_right _ List.mem_cons_self)
    rw [closesFragment, hne _ (by decide), hne _ (by decide), Bool.or_self]
  have hspaces : ∀ word ∈ fragmentKeywords, .char ' ' ∉ word := by decide
  -- A fragment is read as far as its keyword: the guard then finds the arrow.
  have hfragment : ∀ word behind, fragment? (name ++ .char ' ' :: rest) = some (word, behind) →
      behind = rest := by
    intro word behind h
    unfold fragment? at h
    split at h
    · contradiction
    · rename_i found after hfound
      obtain ⟨keyword, hkeyword, hread⟩ := List.exists_of_findSome?_eq_some hfound
      split at hread
      · rename_i u hafter
        rw [Text.after?_append (hspaces keyword hkeyword), Option.map_eq_some_iff] at hafter
        obtain ⟨left, hleft, rfl⟩ := hafter
        split at hread
        · rename_i hend
          have hwords : ∀ b ∈ left, Text.isWord b = true := by
            intro b hb
            refine hname.isWord b ?_
            rw [Text.after?_eq_some_iff.mp hleft]
            exact List.mem_append_right _ hb
          rw [Text.atWordEnd_append hwords (by decide), List.isEmpty_iff] at hend
          obtain ⟨rfl, rfl⟩ := Prod.mk.inj (Option.some.inj hread)
          rw [hend, List.nil_append, Text.dropBlanks_cons_of_isBlank _ (by decide),
            hrest.dropBlanks, Text.line?_eq_some_self hline, Option.map_some] at h
          exact (Prod.mk.inj (Option.some.inj h)).2.symm
        · contradiction
      · contradiction
  rw [convertFragment?, hcloses, if_neg (by decide)]
  cases hread : fragment? (name ++ .char ' ' :: rest) with
  | none => rfl
  | some found =>
      obtain ⟨word, behind⟩ := found
      rw [hfragment word behind hread]
      simp only [harrow, if_true]

/-- A line that begins with a name and an arrow is a message if it is anything. -/
theorem drawing_eq (harrow : beginsWithArrow rest = true) (hline : .char '\n' ∉ rest) {m : Text}
    (hm : convertMessage? (name ++ .char ' ' :: rest) = some m) :
    drawing (name ++ .char ' ' :: rest) = (.neutral, .converted m) := by
  have hplace := place?_eq_none hname hrest
  have hnote : convertNote? (name ++ .char ' ' :: rest) = none := by
    simp only [convertNote?, Note.ofLine?, hplace, Option.map_none]
  have hbegins : Note.begins (name ++ .char ' ' :: rest) = false := by
    simp only [Note.begins, hplace]
  simp only [drawing, convertDeclaration?_eq_none hname hrest, hnote, hbegins, Bool.false_and,
    Bool.false_eq_true, if_false, ends_eq_false hname hrest, fragmentOrMessage,
    convertFragment?_eq_none hname hrest harrow hline, hm]

end

/-! ## Directives -/

/-- A line that begins with a word is neither empty nor set apart by its first character. -/
theorem neutralStep_cons (hc : Text.isWord c = true) (t : Text) : neutralStep (c :: t) =
    if isStyling (c :: t) then
      (modeBehindStyling (c :: t), .dropped)
    else
      match title? (c :: t) with
      | some title => (.neutral, .converted ("title ".toText ++ title))
      | none =>
          if isAutonumber (c :: t) then (.neutral, .converted "autonumber".toText)
          else drawing (c :: t) := by
  have hat : c ≠ '@' := Text.ne_of_isWord hc (by decide)
  have hquote : c ≠ '\'' := Text.ne_of_isWord hc (by decide)
  have hslash : c ≠ '/' := Text.ne_of_isWord hc (by decide)
  unfold neutralStep
  split
  · rename_i hline
    exact absurd hline (List.cons_ne_nil _ _)
  · rename_i hline
    exact absurd (List.cons.inj hline).1 hat
  · rename_i hline
    exact absurd (List.cons.inj hline).1 hquote
  · rename_i hline
    exact absurd (List.cons.inj hline).1 hslash
  · rfl

/-- A line whose word is the word of no directive draws something, if it does anything. -/
theorem neutralStep_eq_drawing (hc : Text.isWord c = true)
    (h : ∀ word ∈ directiveWords, Text.afterKeyword? word (c :: t) = none) :
    neutralStep (c :: t) = drawing (c :: t) := by
  have hstyling : isStyling (c :: t) = false := by
    have hmark : Text.after? ['!'] (c :: t) = none := by
      rw [Text.after?, if_neg (Text.ne_of_isWord hc (by decide)).symm]
    rw [isStyling, hmark, Option.isSome_none, Bool.false_or, List.any_eq_false]
    intro word hword
    simp [h word (List.mem_append_left _ hword)]
  have htitle : title? (c :: t) = none := by
    simp only [title?, h "title".toText (by decide)]
  have hautonumber : isAutonumber (c :: t) = false := by
    simp only [isAutonumber, h "autonumber".toText (by decide)]
  rw [neutralStep_cons hc, hstyling, if_neg (by decide), htitle]
  simp only [hautonumber, Bool.false_eq_true, if_false]

theorem title?_eq_some (hrest : OpensArrow rest)
    (h : Text.afterKeyword? "title".toText name = some []) :
    title? (name ++ .char ' ' :: rest) = some (Text.strip rest) := by
  have hafter : Text.afterKeyword? "title".toText (name ++ .char ' ' :: rest) =
      some (.char ' ' :: rest) := by
    rw [afterKeyword?_append_space (by decide), h]
    rfl
  have hblanks : Text.afterBlanks? (.char ' ' :: rest) = some rest := by
    rw [Text.afterBlanks?_cons_of_isBlank rest (by decide), hrest.dropBlanks]
  simp only [title?, hafter, hblanks, Option.map_some]

section

variable (hname : Text.IsName name) (hrest : OpensArrow rest)
include hname

theorem isStyling_iff : isStyling (name ++ .char ' ' :: rest) = true ↔
    ∃ word ∈ styleWords, Text.afterKeyword? word name = some [] := by
  have hspaces : ∀ word ∈ styleWords, .char ' ' ∉ word := by decide
  have hmark : Text.after? ['!'] (name ++ .char ' ' :: rest) = none := by
    obtain ⟨c, tail, rfl⟩ := List.exists_cons_of_ne_nil hname.ne_nil
    have hc : c ≠ '!' := Text.ne_of_isWord (hname.isWord c List.mem_cons_self) (by decide)
    rw [List.cons_append, Text.after?, if_neg (Ne.symm hc)]
  rw [isStyling, hmark, Option.isSome_none, Bool.false_or, List.any_eq_true]
  constructor
  · rintro ⟨word, hword, hmatch⟩
    exact ⟨word, hword, (matchesWord_iff hname.isWord (hspaces word hword)).mp hmatch⟩
  · rintro ⟨word, hword, hall⟩
    exact ⟨word, hword, (matchesWord_iff hname.isWord (hspaces word hword)).mpr hall⟩

theorem isAutonumber_iff : isAutonumber (name ++ .char ' ' :: rest) = true ↔
    Text.afterKeyword? "autonumber".toText name = some [] :=
  matchesWord_iff hname.isWord (by decide)

include hrest

theorem title?_eq_none (h : Text.afterKeyword? "title".toText name ≠ some []) :
    title? (name ++ .char ' ' :: rest) = none := by
  unfold title?
  cases hafter : Text.afterKeyword? "title".toText (name ++ .char ' ' :: rest) with
  | none => rfl
  | some behind =>
      obtain ⟨left, hleft, rfl⟩ := exists_of_afterKeyword? (by decide) hafter
      cases hblanks : Text.afterBlanks? (left ++ .char ' ' :: rest) with
      | none => simp only [hblanks, Option.map_none]
      | some _ =>
          obtain ⟨rfl, -⟩ := afterBlanks?_eq_some
            (isWord_of_afterKeyword? hname.isWord hleft) hrest hblanks
          exact absurd hleft h

omit hrest

theorem neutralStep_eq : neutralStep (name ++ .char ' ' :: rest) =
    if isStyling (name ++ .char ' ' :: rest) then
      (modeBehindStyling (name ++ .char ' ' :: rest), .dropped)
    else
      match title? (name ++ .char ' ' :: rest) with
      | some title => (.neutral, .converted ("title ".toText ++ title))
      | none =>
          if isAutonumber (name ++ .char ' ' :: rest) then
            (.neutral, .converted "autonumber".toText)
          else drawing (name ++ .char ' ' :: rest) := by
  obtain ⟨c, tail, rfl⟩ := List.exists_cons_of_ne_nil hname.ne_nil
  exact neutralStep_cons (hname.isWord c List.mem_cons_self) (tail ++ .char ' ' :: rest)

theorem isDirective_iff (rest : Text) :
    IsDirective name ↔ isStyling (name ++ .char ' ' :: rest) = true ∨
      Text.afterKeyword? "title".toText name = some [] ∨
      isAutonumber (name ++ .char ' ' :: rest) = true := by
  rw [isStyling_iff hname, isAutonumber_iff hname]
  simp only [IsDirective, directiveWords, List.mem_append, or_and_right, exists_or, List.mem_cons,
    List.not_mem_nil, or_false, exists_eq_left]

include hrest

/-- A line that begins with a name and an arrow is converted as a message unless the
name is the word of a directive. -/
theorem neutralStep_of_not_isDirective (harrow : beginsWithArrow rest = true)
    (hline : .char '\n' ∉ rest)
    {m : Text} (hm : convertMessage? (name ++ .char ' ' :: rest) = some m)
    (h : ¬ IsDirective name) :
    neutralStep (name ++ .char ' ' :: rest) = (.neutral, .converted m) := by
  rw [isDirective_iff hname rest, not_or, not_or] at h
  obtain ⟨hstyling, htitle, hautonumber⟩ := h
  rw [neutralStep_eq hname, if_neg hstyling, title?_eq_none hname hrest htitle, if_neg hautonumber]
  exact drawing_eq hname hrest harrow hline hm

/-- The word of a directive in front of an arrow gives that directive or nothing. -/
theorem mermaid?_of_isDirective (h : IsDirective name) {m : Text}
    (hm : (neutralStep (name ++ .char ' ' :: rest)).2.mermaid? = some m) :
    m = "autonumber".toText ∨ ∃ title, m = "title ".toText ++ title := by
  rw [isDirective_iff hname rest] at h
  rw [neutralStep_eq hname] at hm
  by_cases hstyling : isStyling (name ++ .char ' ' :: rest) = true
  · rw [if_pos hstyling] at hm
    contradiction
  · rw [if_neg hstyling] at hm
    by_cases htitle : Text.afterKeyword? "title".toText name = some []
    · rw [title?_eq_some hrest htitle] at hm
      exact Or.inr ⟨_, (Option.some.inj hm).symm⟩
    · have hautonumber := (h.resolve_left hstyling).resolve_left htitle
      rw [title?_eq_none hname hrest htitle, if_pos hautonumber] at hm
      exact Or.inl (Option.some.inj hm).symm

end

end Lifeline.PlantUml
