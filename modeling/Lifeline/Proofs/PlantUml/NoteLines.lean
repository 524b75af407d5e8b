import Lifeline.Proofs.PlantUml.Directives
import Lifeline.Proofs.PlantUml.Readings
import Lifeline.Proofs.Text.Keywords

/-!
# The lines that open and close notes

A note on several lines is opened by a line with the keyword of a kind of note and a
place, and without a colon.  Whatever the kind, such a line is nothing else, so the
converter is inside a note behind it.  A line that closes a note of some kind is told in
the same way; the converter knows those of the plain kind.
-/

namespace Lifeline.PlantUml

open Text (Spells)

variable {line t u behind text : Text} {c : CodePoint}

/-- The kinds of notes. -/
inductive NoteKind where
  | plain
  | hexagonal
  | rectangular
deriving DecidableEq

namespace NoteKind

variable {k : NoteKind}

/-- The keyword of a kind of note. -/
def word : NoteKind → Text
  | plain => "note".toText
  | hexagonal => .char 'h' :: "note".toText
  | rectangular => .char 'r' :: "note".toText

/-- A line begins with a note of this kind and a place, in any case. -/
def Begins (k : NoteKind) (line : Text) : Prop :=
  ∃ keyword gap place rest, line = keyword ++ (gap ++ (place ++ rest)) ∧ Spells k.word keyword ∧
    Text.isBlankText gap = true ∧ gap ≠ [] ∧ (∃ p ∈ notePlaces, Spells p place) ∧
    Text.atWordEnd rest = true

/-- A line opens a note of this kind on several lines. -/
structure Opens (k : NoteKind) (line : Text) : Prop where
  begins : k.Begins line
  noColon : .char ':' ∉ line

/-- A line closes a note of this kind: `end` and the keyword, in any case. -/
def Closes (k : NoteKind) (line : Text) : Prop :=
  ∃ word gap keyword, line = word ++ (gap ++ keyword) ∧ Spells "end".toText word ∧
    Text.isBlankText gap = true ∧ Spells k.word keyword

/-! ## The beginning of a note -/

theorem isKeyword_word (k : NoteKind) : Text.IsKeyword k.word := by
  cases k with
  | plain => decide
  | hexagonal => decide
  | rectangular => decide

/-- The keywords of notes begin with none of these keywords, nor the other way round. -/
theorem apart_word (k : NoteKind) :
    ∀ other ∈ directiveWords ++ declarationKeywords,
      Text.IsKeyword other ∧ ¬ k.word <+: other ∧ ¬ other <+: k.word := by
  cases k with
  | plain => decide
  | hexagonal => decide
  | rectangular => decide

end NoteKind

/-- The first character of a plain keyword is no letter but an n. -/
theorem exists_cons_of_spells_note (h : Spells NoteKind.plain.word u) : ∃ c v, u = c :: v ∧
    ∀ w : CodePoint, w.isLower = true → w ≠ 'n' → Text.isLetter w c = false := by
  have hword : NoteKind.plain.word = .char 'n' :: "ote".toText := by decide
  rw [hword] at h
  obtain ⟨c, v, hc, -, rfl⟩ := List.forall₂_cons_left_iff.mp h
  refine ⟨c, v, rfl, fun w hw hne => Bool.eq_false_iff.mpr fun hletter => hne ?_⟩
  rw [Text.eq_letterOf hw hletter, ← Text.eq_letterOf rfl hc]

theorem afterNote?_eq_some_iff : Note.afterNote? t = some behind ↔
    ∃ (k : NoteKind) (keyword : Text), t = keyword ++ behind ∧ Spells k.word keyword := by
  constructor
  · intro h
    cases t with
    | nil => contradiction
    | cons c t =>
        rw [Note.afterNote?] at h
        split at h
        · rename_i hc
          obtain ⟨u, rfl, hu⟩ := Text.afterKeyword?_eq_some_iff.mp h
          rcases Bool.or_eq_true_iff.mp hc with hc | hc
          · exact ⟨.hexagonal, c :: u, rfl, .cons hc hu⟩
          · exact ⟨.rectangular, c :: u, rfl, .cons hc hu⟩
        · obtain ⟨u, hu, hspells⟩ := Text.afterKeyword?_eq_some_iff.mp h
          exact ⟨.plain, u, hu, hspells⟩
  · rintro ⟨k, keyword, rfl, hkeyword⟩
    cases k with
    | plain =>
        -- No letter is taken for the one that marks the other kinds.
        obtain ⟨c, v, rfl, hc⟩ := exists_cons_of_spells_note hkeyword
        rw [List.cons_append, Note.afterNote?, hc 'h' rfl (by decide), hc 'r' rfl (by decide)]
        exact hkeyword.afterKeyword?_append behind
    | hexagonal =>
        obtain ⟨c, v, hc, hv, rfl⟩ := List.forall₂_cons_left_iff.mp hkeyword
        rw [List.cons_append, Note.afterNote?, hc, Bool.true_or, if_pos rfl]
        exact Spells.afterKeyword?_append hv behind
    | rectangular =>
        obtain ⟨c, v, hc, hv, rfl⟩ := List.forall₂_cons_left_iff.mp hkeyword
        rw [List.cons_append, Note.afterNote?, hc, Bool.or_true, if_pos rfl]
        exact Spells.afterKeyword?_append hv behind

theorem areApart_notePlaces : Text.AreApart notePlaces :=
  ⟨by decide, by decide⟩

theorem begins_iff : Note.begins line = true ↔ ∃ k : NoteKind, k.Begins line := by
  constructor
  · intro h
    unfold Note.begins Note.place? at h
    cases hnote : Note.afterNote? line with
    | none => simp [hnote] at h
    | some rest =>
        obtain ⟨k, keyword, rfl, hkeyword⟩ := afterNote?_eq_some_iff.mp hnote
        cases hblanks : Text.afterBlanks? rest with
        | none => simp [hnote, hblanks] at h
        | some behind =>
            cases hplace : Text.keyword? notePlaces behind with
            | none => simp [hnote, hblanks, hplace] at h
            | some found =>
                obtain ⟨p, last⟩ := found
                obtain ⟨gap, rfl, hgap, hne⟩ := Text.exists_of_afterBlanks? hblanks
                obtain ⟨hp, place, rfl, hspells⟩ := Text.exists_of_keyword? hplace
                have hend : Text.atWordEnd last = true := by
                  simpa [hnote, hblanks, hplace] using h
                exact ⟨k, keyword, gap, place, last, rfl, hkeyword, hgap, hne, ⟨p, hp, hspells⟩,
                  hend⟩
  · rintro ⟨k, keyword, gap, place, rest, rfl, hkeyword, hgap, hne, ⟨p, hp, hplace⟩, hend⟩
    have hnote : Note.afterNote? (keyword ++ (gap ++ (place ++ rest))) =
        some (gap ++ (place ++ rest)) := afterNote?_eq_some_iff.mpr ⟨k, keyword, rfl, hkeyword⟩
    have hpne : p ≠ [] := by
      rintro rfl
      exact absurd hp (by decide)
    have hdrop : Text.dropBlanks (place ++ rest) = place ++ rest :=
      hplace.dropBlanks_append (areApart_notePlaces.isKeyword p hp) hpne rest
    have hread := hplace.keyword?_append areApart_notePlaces hp rest
    simp only [Note.begins, Note.place?, hnote, Text.afterBlanks?_append hgap hne, hdrop, hread,
      Option.map_some]
    exact hend

theorem ends_iff : Note.ends line = true ↔ NoteKind.plain.Closes line := by
  constructor
  · intro h
    unfold Note.ends at h
    split at h
    · contradiction
    · rename_i rest hend
      split at h
      · rename_i behind hnote
        obtain ⟨word, rfl, hword⟩ := Text.afterKeyword?_eq_some_iff.mp hend
        obtain ⟨keyword, hdrop, hkeyword⟩ := Text.afterKeyword?_eq_some_iff.mp hnote
        rw [List.isEmpty_iff.mp h, List.append_nil] at hdrop
        refine ⟨word, rest.takeWhile Text.isBlank, keyword, ?_, hword, ?_, hkeyword⟩
        · rw [← hdrop, Text.dropBlanks, List.takeWhile_append_dropWhile]
        · exact List.all_takeWhile
      · contradiction
  · rintro ⟨word, gap, keyword, rfl, hword, hgap, hkeyword⟩
    -- A word is no blank, so the gap is dropped up to it.
    have hdrop : Text.dropBlanks (gap ++ keyword) = keyword := by
      rw [Text.dropBlanks_append_of_blank hgap]
      simpa using hkeyword.dropBlanks_append (NoteKind.isKeyword_word .plain) (by decide) []
    have hnote : Text.afterKeyword? "note".toText keyword = some [] :=
      Text.afterKeyword?_eq_some_iff.mpr ⟨keyword, (List.append_nil keyword).symm, hkeyword⟩
    simp only [Note.ends, hword.afterKeyword?_append, hdrop, hnote, List.isEmpty_nil]

/-! ## A note without a colon -/

theorem text?_colon (h : Note.text? t = some text) : .char ':' ∈ t := by
  unfold Note.text? at h
  split at h
  · rename_i rest hdrop
    refine (Text.dropBlanks_suffix t).subset ?_
    rw [hdrop]
    exact List.mem_cons_self
  · contradiction

theorem noteEnding?_colon {second? : Option Text} (h : Note.ending? t = some (second?, text)) :
    .char ':' ∈ t := by
  have hplain : (Note.text? t).map (fun text => ((none : Option Text), text)) =
      some (second?, text) → .char ':' ∈ t := by
    intro h
    obtain ⟨found, htext, -⟩ := Option.map_eq_some_iff.mp h
    exact text?_colon htext
  unfold Note.ending? at h
  split at h
  · rename_i rest hdrop
    cases hmost : Text.most Text.isBlank (Note.name? Note.text?) rest with
    | none =>
        simp only [hmost, Option.map_none] at h
        exact hplain h
    | some found =>
        obtain ⟨front, hfront, hname⟩ := Text.exists_of_most_eq_some hmost
        obtain ⟨-, behind, hbehind, htext⟩ := Note.exists_of_name? hname
        exact Text.subset_of_dropBlanks_eq hdrop
          (hfront.subset (hbehind.subset (text?_colon htext)))
  · exact hplain h

theorem participants?_colon {first : Text} {second? : Option Text}
    (h : Note.participants? t = some (first, second?, text)) : .char ':' ∈ t := by
  have hread : ∀ front answer, front <:+ t → Note.name? Note.ending? front = some answer →
      .char ':' ∈ t := by
    intro front ⟨name, second?, text⟩ hfront hname
    obtain ⟨-, behind, hbehind, hending⟩ := Note.exists_of_name? hname
    exact hfront.subset (hbehind.subset (noteEnding?_colon hending))
  unfold Note.participants? at h
  split at h
  · rename_i rest hword
    cases hof : Text.mostSome Text.isBlank (Note.name? Note.ending?) rest with
    | none =>
        simp only [hof] at h
        exact hread t _ (List.suffix_refl t) h
    | some answer =>
        obtain ⟨front, hfront, hname⟩ := Text.exists_of_mostSome_eq_some hof
        exact hread front answer (hfront.trans (Text.afterKeyword?_suffix hword)) hname
  · exact hread t _ (List.suffix_refl t) h

/-- A note on one line has a colon. -/
theorem convertNote?_eq_none (h : .char ':' ∉ line) : convertNote? line = none := by
  rw [convertNote?, Option.map_eq_none_iff]
  refine Option.eq_none_iff_forall_ne_some.mpr fun n hn => h ?_
  unfold Note.ofLine? at hn
  split at hn
  · contradiction
  · rename_i place written rest hplace
    obtain ⟨⟨first, second?, text⟩, hmost, -⟩ := Option.map_eq_some_iff.mp hn
    obtain ⟨front, hfront, hread⟩ := Text.exists_of_mostSome_eq_some hmost
    exact (hfront.trans (Note.place?_subset hplace).2).subset (participants?_colon hread)

/-! ## What a line that opens a note is not -/

namespace NoteKind

variable {k : NoteKind}

theorem Begins.afterKeyword?_eq_none (h : k.Begins line) {other : Text}
    (hother : other ∈ directiveWords ++ declarationKeywords) :
    Text.afterKeyword? other line = none := by
  obtain ⟨keyword, gap, place, rest, rfl, hkeyword, -⟩ := h
  obtain ⟨hletters, hapart⟩ := apart_word k other hother
  exact hkeyword.afterKeyword?_eq_none (isKeyword_word k) hletters hapart _

theorem Begins.exists_cons (h : k.Begins line) : ∃ c t, line = c :: t ∧ Text.isWord c = true := by
  obtain ⟨keyword, gap, place, rest, rfl, hkeyword, -⟩ := h
  have hne : k.word ≠ [] := by
    cases k with
    | plain => decide
    | hexagonal => decide
    | rectangular => decide
  obtain ⟨c, v, rfl, hc⟩ := hkeyword.exists_cons (isKeyword_word k) hne
  exact ⟨c, _, rfl, hc⟩

theorem Begins.convertDeclaration?_eq_none (h : k.Begins line) :
    convertDeclaration? line = none := by
  have hkeyword : Text.keyword? declarationKeywords line = none :=
    Text.keyword?_eq_none fun word hword =>
      h.afterKeyword?_eq_none (List.mem_append_right _ hword)
  simp only [convertDeclaration?, Declaration.ofLine?, hkeyword, Option.map_none]

/-- Behind a line that opens a note the converter is inside the note. -/
theorem Opens.neutralStep_eq (h : k.Opens line) : neutralStep line = (.note, .dropped) := by
  have hwords : ∀ word ∈ directiveWords, Text.afterKeyword? word line = none :=
    fun word hword => h.begins.afterKeyword?_eq_none (List.mem_append_left _ hword)
  have hbegins : Note.begins line = true := begins_iff.mpr ⟨k, h.begins⟩
  have hnoColon : (!decide (.char ':' ∈ line)) = true := by simpa using h.noColon
  have hdeclaration := h.begins.convertDeclaration?_eq_none
  have hnote := convertNote?_eq_none h.noColon
  obtain ⟨c, t, rfl, hc⟩ := h.begins.exists_cons
  rw [neutralStep_eq_drawing hc hwords]
  simp only [drawing, hdeclaration, hnote, hbegins, hnoColon, Bool.and_self, if_true]

end NoteKind

end Lifeline.PlantUml
