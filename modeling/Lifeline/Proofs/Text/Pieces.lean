import Lifeline.Text.Lines
import Mathlib

/-!
# Pieces between separators

A text is cut at its separators, so pieces without separators that are joined by
one are the pieces that the joined text is cut into.  Where everything but letters
and digits separates, a piece stays one when it is made small.
-/

namespace Lifeline.Text

variable {isSeparator : CodePoint → Bool} {separator : CodePoint} {piece t : Text}
  {pieces : List Text}

theorem splitWhere_of_forall (hpiece : ∀ c ∈ piece, isSeparator c = false) :
    splitWhere isSeparator piece = [piece] := by
  induction piece with
  | nil => rfl
  | cons c piece ih =>
      obtain ⟨hc, hrest⟩ := List.forall_mem_cons.mp hpiece
      rw [splitWhere, if_neg (by rw [hc]; decide), ih hrest]

theorem lines_eq_singleton (ht : .char '\n' ∉ t) : lines t = [t] :=
  splitWhere_of_forall fun _ hc => beq_eq_false_iff_ne.mpr fun heq => ht (heq ▸ hc)

/-- No separator stands in a piece. -/
theorem not_separator_of_mem_splitWhere {c : CodePoint} (hpiece : piece ∈ splitWhere isSeparator t)
    (hc : c ∈ piece) : isSeparator c = false := by
  induction t generalizing piece with
  | nil =>
      rw [List.mem_singleton.mp hpiece] at hc
      exact absurd hc List.not_mem_nil
  | cons b t ih =>
      obtain ⟨first, others, hsplit⟩ := List.exists_cons_of_ne_nil (splitWhere_ne_nil isSeparator t)
      rw [splitWhere] at hpiece
      split at hpiece
      · rcases List.mem_cons.mp hpiece with rfl | hpiece
        · exact absurd hc List.not_mem_nil
        · exact ih hpiece hc
      · rename_i hb
        rw [hsplit] at hpiece ih
        rcases List.mem_cons.mp hpiece with rfl | hpiece
        · rcases List.mem_cons.mp hc with rfl | hc
          · exact eq_false_of_ne_true hb
          · exact ih List.mem_cons_self hc
        · exact ih (List.mem_cons_of_mem _ hpiece) hc

/-- Pieces that are joined by a separator are cut apart again. -/
theorem splitWhere_join (hseparator : isSeparator separator = true) (hnil : pieces ≠ [])
    (hpieces : ∀ piece ∈ pieces, ∀ c ∈ piece, isSeparator c = false) :
    splitWhere isSeparator (join [separator] pieces) = pieces := by
  induction pieces with
  | nil => contradiction
  | cons piece pieces ih =>
      obtain ⟨hpiece, hrest⟩ := List.forall_mem_cons.mp hpieces
      cases pieces with
      | nil => exact splitWhere_of_forall hpiece
      | cons next pieces =>
          have hbehind := ih (List.cons_ne_nil _ _) hrest
          rw [join, List.singleton_append, splitWhere_append_cons hseparator,
            splitWhere_of_forall hpiece, hbehind, List.singleton_append]

/-- Lines that are joined are the lines of what they are joined to. -/
theorem lines_unlines (hnil : pieces ≠ []) (hpieces : ∀ piece ∈ pieces, .char '\n' ∉ piece) :
    lines (unlines pieces) = pieces := by
  refine splitWhere_join (beq_self_eq_true '\n') hnil fun piece hpiece c hc => ?_
  rw [beq_eq_false_iff_ne]
  rintro rfl
  exact hpieces piece hpiece hc

theorem newline_notMem_of_mem_lines (hpiece : piece ∈ lines t) : .char '\n' ∉ piece :=
  fun hmem => absurd (not_separator_of_mem_splitWhere hpiece hmem) (by decide)

theorem map_join (f : CodePoint → CodePoint) (hf : f separator = separator) :
    (join [separator] pieces).map f = join [separator] (pieces.map fun piece => piece.map f) := by
  induction pieces with
  | nil => rfl
  | cons piece pieces ih =>
      cases pieces with
      | nil => rfl
      | cons next pieces =>
          rw [join, List.map_append, List.map_append, ih, List.map_singleton, hf]
          rfl

/-! ## The first separator -/

theorem cutAt?_eq_some_iff {before behind : Text} :
    cutAt? separator t = some (before, behind) ↔
      t = before ++ separator :: behind ∧ separator ∉ before := by
  induction t generalizing before with
  | nil => simp [cutAt?]
  | cons c t ih =>
      -- The cut is here, or it is the one in the rest with this element in front.
      by_cases hc : c = separator
      · rw [cutAt?, if_pos hc, hc]
        cases before with
        | nil => simp [eq_comm]
        | cons b before => simp +contextual
      · rw [cutAt?, if_neg hc]
        cases before with
        | nil => simp [hc]
        | cons b before =>
            simp only [Option.map_eq_some_iff, Prod.exists, Prod.mk.injEq, List.cons.injEq,
              List.cons_append, List.mem_cons, not_or]
            constructor
            · rintro ⟨front, back, hcut, ⟨rfl, rfl⟩, rfl⟩
              obtain ⟨ht, hfront⟩ := ih.mp hcut
              exact ⟨⟨rfl, ht⟩, Ne.symm hc, hfront⟩
            · rintro ⟨⟨rfl, ht⟩, -, hbefore⟩
              exact ⟨before, behind, ih.mpr ⟨ht, hbefore⟩, ⟨rfl, rfl⟩, rfl⟩

/-- A word that a text holds is found there for a first time. -/
theorem exists_first_infix {word : Text} (hword : word ≠ []) (h : word <:+: t) :
    ∃ before behind, t = before ++ (word ++ behind) ∧ ¬ word <:+: before := by
  have hnil : ¬ word <:+: [] := fun h => hword (List.infix_nil.mp h)
  induction t with
  | nil => exact absurd h hnil
  | cons c t ih =>
      by_cases hhere : word <+: c :: t
      · obtain ⟨behind, hbehind⟩ := hhere
        exact ⟨[], behind, hbehind.symm, hnil⟩
      · obtain ⟨before, behind, rfl, hfirst⟩ := ih ((List.infix_cons_iff.mp h).resolve_left hhere)
        refine ⟨c :: before, behind, rfl, fun hinside => ?_⟩
        rcases List.infix_cons_iff.mp hinside with hbegin | hdeep
        · exact hhere (hbegin.trans (List.prefix_append (c :: before) (word ++ behind)))
        · exact hfirst hdeep

/-! ## Letters and digits -/

theorem isAlphanum_toLower {c : CodePoint} (h : c.isAlphanum = true) :
    c.toLower.isAlphanum = true := by
  by_cases hupper : c.isUpper = true
  · have halpha : c.isAlpha = true := by rw [CodePoint.isAlpha, hupper, Bool.true_or]
    rw [CodePoint.isAlphanum, CodePoint.isAlpha_toLower_eq_isAlpha, halpha, Bool.true_or]
  · rwa [CodePoint.toLower_eq_of_not_isUpper hupper]

theorem toNat_lt_of_isAlphanum {c : CodePoint} (h : c.isAlphanum = true) : c.toNat < 128 := by
  rw [CodePoint.isAlphanum, Bool.or_eq_true, CodePoint.isAlpha_iff, CodePoint.isDigit_iff] at h
  omega

/-- Pieces of characters are joined to a text of characters. -/
theorem isScalar_join {between : Text} (hbetween : between.isScalar = true)
    (hpieces : ∀ piece ∈ pieces, piece.isScalar = true) :
    (join between pieces).isScalar = true := by
  induction pieces with
  | nil => rfl
  | cons piece pieces ih =>
      obtain ⟨hpiece, hpieces⟩ := List.forall_mem_cons.mp hpieces
      cases pieces with
      | nil => exact hpiece
      | cons next pieces =>
          rw [join, isScalar_append, isScalar_append, hpiece, hbetween, ih hpieces]
          rfl

end Lifeline.Text
