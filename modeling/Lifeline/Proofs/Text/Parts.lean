import Lifeline.Proofs.Text.Lines
import Lifeline.Proofs.Text.Pieces
import Lifeline.Proofs.Text.Replacement
import Lifeline.Text.Letter

/-!
# Parts of a text

What is trimmed, cut off or read from a text has no characters of its own, so a line
makes no line feed, whatever is read from it.
-/

namespace Lifeline.Text

variable {old new t rest : Text} {c separator : CodePoint}

theorem dropBlanks_suffix (t : Text) : dropBlanks t <:+ t :=
  List.dropWhile_suffix isBlank

theorem subset_of_dropBlanks_eq (h : dropBlanks t = c :: rest) : rest ⊆ t := by
  have hsuffix := dropBlanks_suffix t
  rw [h] at hsuffix
  exact ((List.suffix_cons c rest).trans hsuffix).subset

theorem afterBlanks?_suffix (h : afterBlanks? t = some rest) : rest <:+ t := by
  cases t with
  | nil => contradiction
  | cons c t =>
      rw [afterBlanks?] at h
      split at h
      · rw [← Option.some.inj h]
        exact (dropBlanks_suffix t).trans (List.suffix_cons c t)
      · contradiction

theorem cutAt?_suffix {before : Text} (h : cutAt? separator t = some (before, rest)) :
    rest <:+ t := by
  obtain ⟨ht, -⟩ := cutAt?_eq_some_iff.mp h
  exact ⟨before ++ [separator], by rw [ht, List.append_assoc, List.singleton_append]⟩

theorem strip_subset (t : Text) : strip t ⊆ t :=
  (isInfix_strip t).subset

theorem line?_subset (h : line? t = some rest) : rest ⊆ t := by
  induction t generalizing rest with
  | nil =>
      rw [← Option.some.inj h]
      exact List.Subset.refl []
  | cons c t ih =>
      rw [line?] at h
      split at h
      · split at h
        · rw [← Option.some.inj h]
          exact List.nil_subset _
        · contradiction
      · obtain ⟨line, hline, rfl⟩ := Option.map_eq_some_iff.mp h
        exact List.cons_subset_cons c (ih hline)

theorem line?_append {front : Text} (hfront : .char '\n' ∉ front) (t : Text) :
    line? (front ++ t) = (line? t).map fun rest => front ++ rest := by
  induction front with
  | nil => simp
  | cons c front ih =>
      rw [List.mem_cons, not_or] at hfront
      rw [List.cons_append, line?, if_neg (Ne.symm hfront.1), ih hfront.2, Option.map_map]
      rfl

/-! ## What is rewritten -/

theorem mem_collapseFrom {inRun : Bool} (h : c ∈ collapseFrom inRun t) : c = ' ' ∨ c ∈ t := by
  induction t generalizing inRun with
  | nil => contradiction
  | cons d t ih =>
      rw [collapseFrom] at h
      split at h
      · split at h
        · exact (ih h).imp_right (List.mem_cons_of_mem d)
        · rcases List.mem_cons.mp h with rfl | h
          · exact Or.inl rfl
          · exact (ih h).imp_right (List.mem_cons_of_mem d)
      · rcases List.mem_cons.mp h with rfl | h
        · exact Or.inr List.mem_cons_self
        · exact (ih h).imp_right (List.mem_cons_of_mem d)

theorem Replaced.mem_imp {u : Text} (h : Replaced old new t u) (hc : c ∈ u) : c ∈ new ∨ c ∈ t := by
  induction h with
  | nil => contradiction
  | keep d _ ih =>
      rcases List.mem_cons.mp hc with rfl | hc
      · exact Or.inr List.mem_cons_self
      · exact (ih hc).imp_right (List.mem_cons_of_mem d)
  | swap _ ih =>
      rcases List.mem_append.mp hc with hc | hc
      · exact Or.inl hc
      · exact (ih hc).imp_right (List.mem_append_right old)

theorem mem_replaceAll (hold : old ≠ []) (h : c ∈ replaceAll old new t) : c ∈ new ∨ c ∈ t :=
  (replaced_replaceAll hold t).mem_imp h

/-- Small letters stand in the place of capital ones, one of them with a dot of its own. -/
theorem mem_lower (h : c ∈ lower t) : c ∈ t ∨ c.isAlpha = true ∨ c = '\u0307' := by
  obtain ⟨d, hd, hlower⟩ := List.mem_flatMap.mp h
  unfold lowerChar at hlower
  split at hlower
  · rcases List.mem_cons.mp hlower with rfl | hdot
    · exact Or.inr (Or.inl rfl)
    · exact Or.inr (Or.inr (List.mem_singleton.mp hdot))
  · split at hlower
    · rw [List.mem_singleton.mp hlower]
      exact Or.inr (Or.inl rfl)
    · rw [List.mem_singleton.mp hlower]
      by_cases hupper : d.isUpper = true
      · rw [CodePoint.isAlpha_toLower_eq_isAlpha, CodePoint.isAlpha, hupper, Bool.true_or]
        exact Or.inr (Or.inl rfl)
      · rw [CodePoint.toLower_eq_of_not_isUpper hupper]
        exact Or.inl hd

end Lifeline.Text
