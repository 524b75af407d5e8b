import Lifeline.Proofs.Text.Names
import Lifeline.Proofs.Text.Pieces

/-!
# Keywords, however they are written

A keyword is given in small letters and found without regard to case.  What is found is
told here without the reader: the text begins with something that spells the keyword.
No character counts as two letters, so a text begins with at most one of several
keywords none of which begins another.
-/

namespace Lifeline.Text

variable {word other t u rest rest' : Text} {w w' c : CodePoint} {keywords : List Text}

/-- A text is a word in small letters, without regard to case. -/
def Spells (word t : Text) : Prop :=
  List.Forall₂ (fun w c => isLetter w c = true) word t

/-- A keyword has small ASCII letters only. -/
def IsKeyword (word : Text) : Prop :=
  word.all CodePoint.isLower = true

instance (word : Text) : Decidable (IsKeyword word) :=
  inferInstanceAs (Decidable (word.all CodePoint.isLower = true))

theorem isKeyword_cons : IsKeyword (w :: word) ↔ w.isLower = true ∧ IsKeyword word := by
  simp [IsKeyword]

/-! ## Letters -/

/-- The characters that count as letters and are not ASCII. -/
def wideLetters : List CodePoint :=
  ['\u017F', '\u212A', '\u0130', '\u0131']

/-- The only small ASCII letter that a character may count as. -/
def letterOf (c : CodePoint) : CodePoint :=
  if c = '\u017F' then 's'
  else if c = '\u212A' then 'k'
  else if c = '\u0130' ∨ c = '\u0131' then 'i'
  else c.toLower

theorem isLetter_iff : isLetter w c = true ↔ c.toLower = w ∨ (w = 's' ∧ c = '\u017F') ∨
    (w = 'k' ∧ c = '\u212A') ∨ (w = 'i' ∧ (c = '\u0130' ∨ c = '\u0131')) := by
  simp [isLetter, or_assoc]

/-- A character that is no letter counts as nothing else. -/
theorem eq_of_isLetter (hw : w.isAlpha = false) (h : isLetter w c = true) : c = w := by
  have hwide : w ≠ 's' ∧ w ≠ 'k' ∧ w ≠ 'i' := by
    refine ⟨?_, ?_, ?_⟩ <;> (rintro rfl; contradiction)
  rcases isLetter_iff.mp h with hlower | ⟨hs, -⟩ | ⟨hk, -⟩ | ⟨hi, -⟩
  · by_cases hupper : c.isUpper = true
    · rw [← hlower, CodePoint.isAlpha_toLower_eq_isAlpha, CodePoint.isAlpha, hupper,
        Bool.true_or] at hw
      contradiction
    · rwa [CodePoint.toLower_eq_of_not_isUpper hupper] at hlower
  · exact absurd hs hwide.1
  · exact absurd hk hwide.2.1
  · exact absurd hi hwide.2.2

/-- What has a small ASCII letter as its small form is ASCII itself. -/
theorem notMem_wideLetters (h : c.toLower.isLower = true) : c ∉ wideLetters := by
  have hwide : wideLetters.any (fun d => d.toLower.isLower) = false := by decide
  exact fun hc => List.any_eq_false.mp hwide c hc h

theorem eq_letterOf (hw : w.isLower = true) (h : isLetter w c = true) : w = letterOf c := by
  rcases isLetter_iff.mp h with rfl | ⟨rfl, rfl⟩ | ⟨rfl, rfl⟩ | ⟨rfl, rfl | rfl⟩
  · have hnarrow := notMem_wideLetters hw
    simp only [wideLetters, List.mem_cons, List.not_mem_nil, or_false, not_or] at hnarrow
    obtain ⟨hs, hk, hi, hi'⟩ := hnarrow
    rw [letterOf, if_neg hs, if_neg hk, if_neg (not_or.mpr ⟨hi, hi'⟩)]
  · rfl
  · rfl
  · rfl
  · rfl

theorem isLetter_toLower (c : CodePoint) : isLetter c.toLower c = true :=
  isLetter_iff.mpr (Or.inl rfl)

theorem isWord_of_isLetter (hw : w.isLower = true) (h : isLetter w c = true) : isWord c = true := by
  rcases isLetter_iff.mp h with rfl | ⟨-, rfl⟩ | ⟨-, rfl⟩ | ⟨-, rfl | rfl⟩
  · have halphanum : c.isAlphanum = true := by
      rw [CodePoint.isAlphanum, ← CodePoint.isAlpha_toLower_eq_isAlpha, CodePoint.isAlpha, hw,
        Bool.or_true, Bool.true_or]
    exact isWord_of_isAlphanum halphanum (toNat_lt_of_isAlphanum halphanum)
  · decide +kernel
  · decide +kernel
  · decide +kernel
  · decide +kernel

/-! ## Words -/

theorem Spells.exists_cons (h : Spells word u) (hword : IsKeyword word) (hne : word ≠ []) :
    ∃ c v, u = c :: v ∧ isWord c = true := by
  obtain ⟨w, word, rfl⟩ := List.exists_cons_of_ne_nil hne
  obtain ⟨c, v, hc, -, rfl⟩ := List.forall₂_cons_left_iff.mp h
  exact ⟨c, v, rfl, isWord_of_isLetter (isKeyword_cons.mp hword).1 hc⟩

/-- What spells a keyword does not begin with white space. -/
theorem Spells.dropBlanks_append (h : Spells word u) (hword : IsKeyword word) (hne : word ≠ [])
    (rest : Text) : dropBlanks (u ++ rest) = u ++ rest := by
  obtain ⟨c, v, rfl, hc⟩ := h.exists_cons hword hne
  exact dropBlanks_cons_of_not_isBlank _ (isBlank_of_isWord hc)

/-- A text that is the word when its ASCII capitals are made small spells it. -/
theorem spells_of_map_toLower (h : u.map CodePoint.toLower = word) : Spells word u := by
  subst h
  induction u with
  | nil => exact .nil
  | cons c u ih => exact .cons (isLetter_toLower c) ih

/-- Such a text becomes the word when it is written in small letters. -/
theorem lower_eq_of_map_toLower (hword : IsKeyword word) (h : u.map CodePoint.toLower = word) :
    lower u = word := by
  subst h
  induction u with
  | nil => rfl
  | cons c u ih =>
      obtain ⟨hc, htail⟩ := isKeyword_cons.mp hword
      have hnarrow := notMem_wideLetters hc
      simp only [wideLetters, List.mem_cons, List.not_mem_nil, or_false, not_or] at hnarrow
      obtain ⟨-, hk, hi, -⟩ := hnarrow
      rw [lower, List.flatMap_cons, List.map_cons, ← lower, ih htail]
      simp [lowerChar, hi, hk]

theorem afterKeyword?_eq_some_iff :
    afterKeyword? word t = some rest ↔ ∃ u, t = u ++ rest ∧ Spells word u := by
  induction word generalizing t with
  | nil =>
      rw [afterKeyword?_nil, Option.some.injEq]
      constructor
      · rintro rfl
        exact ⟨[], rfl, .nil⟩
      · rintro ⟨u, rfl, hu⟩
        rw [List.forall₂_nil_left_iff.mp hu, List.nil_append]
  | cons w word ih =>
      constructor
      · intro h
        cases t with
        | nil => contradiction
        | cons c t =>
            rw [afterKeyword?] at h
            split at h
            · rename_i hc
              obtain ⟨u, rfl, hu⟩ := ih.mp h
              exact ⟨c :: u, rfl, .cons hc hu⟩
            · contradiction
      · rintro ⟨u, rfl, hu⟩
        obtain ⟨c, v, hc, hv, rfl⟩ := List.forall₂_cons_left_iff.mp hu
        rw [List.cons_append, afterKeyword?, if_pos hc]
        exact ih.mpr ⟨v, rfl, hv⟩

theorem Spells.afterKeyword?_append (h : Spells word u) (rest : Text) :
    afterKeyword? word (u ++ rest) = some rest :=
  afterKeyword?_eq_some_iff.mpr ⟨u, rfl, h⟩

/-- Of two keywords that a text begins with one begins the other. -/
theorem prefix_or_prefix_of_afterKeyword? (hword : IsKeyword word) (hother : IsKeyword other)
    (h : afterKeyword? word t = some rest) (h' : afterKeyword? other t = some rest') :
    word <+: other ∨ other <+: word := by
  induction word generalizing other t with
  | nil => exact Or.inl other.nil_prefix
  | cons w word ih =>
      cases other with
      | nil => exact Or.inr (List.nil_prefix)
      | cons w' other =>
          cases t with
          | nil => contradiction
          | cons c t =>
              obtain ⟨hw, htail⟩ := isKeyword_cons.mp hword
              obtain ⟨hw', htail'⟩ := isKeyword_cons.mp hother
              rw [afterKeyword?] at h h'
              split at h
              · rename_i hc
                split at h'
                · rename_i hc'
                  -- Both letters are the one that the character stands for.
                  obtain rfl := (eq_letterOf hw hc).trans (eq_letterOf hw' hc').symm
                  have hlater : word <+: other ∨ other <+: word := ih htail htail' h h'
                  simpa using hlater
                · contradiction
              · contradiction

/-- A text that begins with one word does not begin with another keyword. -/
theorem Spells.afterKeyword?_eq_none (h : Spells word u) (hword : IsKeyword word)
    (hother : IsKeyword other) (hapart : ¬ word <+: other ∧ ¬ other <+: word) (rest : Text) :
    afterKeyword? other (u ++ rest) = none := by
  refine Option.eq_none_iff_forall_ne_some.mpr fun rest' h' => ?_
  rcases prefix_or_prefix_of_afterKeyword? hword hother (h.afterKeyword?_append rest) h' with
    hprefix | hprefix
  · exact hapart.1 hprefix
  · exact hapart.2 hprefix

/-! ## Several keywords -/

/-- Keywords none of which begins another. -/
structure AreApart (keywords : List Text) : Prop where
  isKeyword : ∀ word ∈ keywords, IsKeyword word
  pairwise : keywords.Pairwise fun word other => ¬ word <+: other ∧ ¬ other <+: word

theorem keyword?_eq_none (h : ∀ word ∈ keywords, afterKeyword? word t = none) :
    keyword? keywords t = none := by
  refine List.findSome?_eq_none_iff.mpr fun word hword => ?_
  rw [h word hword, Option.map_none]

theorem exists_of_keyword? (h : keyword? keywords t = some (word, rest)) :
    word ∈ keywords ∧ ∃ u, t = u ++ rest ∧ Spells word u := by
  obtain ⟨found, hmem, hread⟩ := List.exists_of_findSome?_eq_some h
  obtain ⟨behind, hbehind, heq⟩ := Option.map_eq_some_iff.mp hread
  obtain ⟨rfl, rfl⟩ := Prod.mk.inj heq
  exact ⟨hmem, afterKeyword?_eq_some_iff.mp hbehind⟩

theorem Spells.keyword?_append (h : Spells word u) (hapart : AreApart keywords)
    (hmem : word ∈ keywords) (rest : Text) :
    keyword? keywords (u ++ rest) = some (word, rest) := by
  obtain ⟨hkeyword, hpairwise⟩ := hapart
  induction keywords with
  | nil => exact absurd hmem List.not_mem_nil
  | cons other keywords ih =>
      obtain ⟨hothers, hpairwise⟩ := List.pairwise_cons.mp hpairwise
      rw [keyword?, List.findSome?_cons]
      rcases List.mem_cons.mp hmem with rfl | hlater
      · rw [h.afterKeyword?_append rest, Option.map_some]
      · have hnone : afterKeyword? other (u ++ rest) = none :=
          h.afterKeyword?_eq_none (hkeyword word hmem) (hkeyword other List.mem_cons_self)
            (hothers word hlater).symm rest
        rw [hnone, Option.map_none]
        exact ih hlater (fun word hword => hkeyword word (List.mem_cons_of_mem other hword))
          hpairwise

end Lifeline.Text
