import Lifeline.Proofs.Text.Trimming
import Lifeline.Text.Lines
import Mathlib.Data.List.Infix

/-!
# What is left of a text when its lines are trimmed

Trimming lines and dropping blank ones joins what did not touch before, but
always with a line feed between.  So a word without line feeds that is found in
the trimmed text was there before.
-/

namespace Lifeline

/-- A word without the element at which two lists meet lies in one of them. -/
theorem infix_of_infix_append_cons {α : Type} {word t u : List α} {c : α} (hc : c ∉ word)
    (h : word <:+: t ++ c :: u) : word <:+: t ∨ word <:+: u := by
  have hword : ∀ {v : List α}, word <+: v ++ c :: u → word <+: v := by
    intro v hp
    have hmeet : v ++ [c] <+: v ++ c :: u := ⟨u, by simp⟩
    rcases List.prefix_or_prefix_of_prefix hp hmeet with hshort | hlong
    · rcases List.prefix_concat_iff.mp hshort with rfl | hinside
      · simp at hc
      · exact hinside
    · exact absurd (hlong.subset (by simp)) hc
  induction t with
  | nil =>
      rcases List.infix_cons_iff.mp h with hp | hi
      · exact Or.inl (hword (v := []) hp).isInfix
      · exact Or.inr hi
  | cons b t ih =>
      rcases List.infix_cons_iff.mp h with hp | hi
      · exact Or.inl (hword (v := b :: t) hp).isInfix
      · rcases ih hi with hleft | hright
        · exact Or.inl (List.infix_cons hleft)
        · exact Or.inr hright

/-- A word without the element at which two lists meet lies in one of them, or in neither. -/
theorem infix_append_cons_iff {α : Type} {word t u : List α} {c : α} (hc : c ∉ word) :
    word <:+: t ++ c :: u ↔ word <:+: t ∨ word <:+: u := by
  refine ⟨infix_of_infix_append_cons hc, ?_⟩
  rintro (hleft | hright)
  · exact hleft.trans (List.prefix_append t (c :: u)).isInfix
  · have hback : u <:+ t ++ c :: u := ⟨t ++ [c], by simp⟩
    exact hright.trans hback.isInfix

namespace Text

variable {word t : Text}

/-- The pieces of a text stand in it. -/
theorem infix_of_mem_splitWhere {isSeparator : CodePoint → Bool} {piece : Text}
    (h : piece ∈ splitWhere isSeparator t) : piece <:+: t := by
  -- The first piece has to be a beginning of the text, so that a character can
  -- be put in front of it.
  suffices hall : ∀ first more, splitWhere isSeparator t = first :: more →
      first <+: t ∧ ∀ p ∈ more, p <:+: t by
    obtain ⟨first, more, hsplit⟩ := List.exists_cons_of_ne_nil (splitWhere_ne_nil isSeparator t)
    obtain ⟨hfirst, hmore⟩ := hall first more hsplit
    rw [hsplit] at h
    rcases List.mem_cons.mp h with rfl | hp
    · exact hfirst.isInfix
    · exact hmore piece hp
  clear h
  induction t with
  | nil =>
      intro first more hsplit
      obtain ⟨rfl, rfl⟩ := List.cons.inj hsplit
      simp
  | cons b t ih =>
      intro first more hsplit
      obtain ⟨next, others, hrest⟩ := List.exists_cons_of_ne_nil (splitWhere_ne_nil isSeparator t)
      obtain ⟨hnext, hothers⟩ := ih next others hrest
      by_cases hb : isSeparator b = true
      · rw [splitWhere, if_pos hb, hrest] at hsplit
        obtain ⟨rfl, rfl⟩ := List.cons.inj hsplit
        refine ⟨List.nil_prefix, ?_⟩
        intro p hp
        rcases List.mem_cons.mp hp with rfl | hp
        · exact List.infix_cons hnext.isInfix
        · exact List.infix_cons (hothers p hp)
      · rw [splitWhere, if_neg hb, hrest] at hsplit
        obtain ⟨rfl, rfl⟩ := List.cons.inj hsplit
        exact ⟨List.cons_prefix_cons.mpr ⟨rfl, hnext⟩, fun p hp => List.infix_cons (hothers p hp)⟩

theorem isInfix_strip (t : Text) : strip t <:+: t := by
  have hfront : dropBlanks t <:+ t := List.dropWhile_suffix isBlank
  have hback : strip t <+: dropBlanks t := dropBlanksEnd_prefix (dropBlanks t)
  exact hback.isInfix.trans hfront.isInfix

/-- A word without line feeds stands in one of the lines that it is found in. -/
theorem exists_infix_of_infix_unlines {ls : List Text} (hword : word ≠ [])
    (hline : .char '\n' ∉ word) (h : word <:+: unlines ls) : ∃ l ∈ ls, word <:+: l := by
  induction ls with
  | nil => exact absurd (List.infix_nil.mp h) hword
  | cons l ls ih =>
      cases ls with
      | nil => exact ⟨l, List.mem_cons_self, h⟩
      | cons next ls =>
          have hmeet : word <:+: l ++ .char '\n' :: unlines (next :: ls) := h
          rcases infix_of_infix_append_cons hline hmeet with hhere | hbehind
          · exact ⟨l, List.mem_cons_self, hhere⟩
          · obtain ⟨k, hk, hinside⟩ := ih hbehind
            exact ⟨k, List.mem_cons_of_mem l hk, hinside⟩

/-- Trimming the lines makes no word that was not there before. -/
theorem infix_of_infix_compactLines (hword : word ≠ []) (hline : .char '\n' ∉ word)
    (h : word <:+: compactLines t) : word <:+: t := by
  obtain ⟨l, hl, hinside⟩ := exists_infix_of_infix_unlines hword hline h
  obtain ⟨line, hmem, rfl⟩ := List.mem_map.mp (List.mem_of_mem_filter hl)
  exact hinside.trans ((isInfix_strip line).trans (infix_of_mem_splitWhere hmem))

/-- No character comes in when lines are trimmed. -/
theorem isScalar_compactLines (ht : t.isScalar = true) : (compactLines t).isScalar = true := by
  rw [isScalar_iff]
  intro c hc
  by_cases hline : c = '\n'
  · rw [hline]
    rfl
  · have hinside : [c] <:+: compactLines t := by
      obtain ⟨front, back, hparts⟩ := List.append_of_mem hc
      exact ⟨front, back, by rw [hparts, List.append_assoc, List.singleton_append]⟩
    have hmem : [c] <:+: t :=
      infix_of_infix_compactLines (List.cons_ne_nil c []) (by simpa using Ne.symm hline) hinside
    exact isScalar_iff.mp ht c (hmem.subset List.mem_cons_self)

/-! ## The lines of a trimmed text -/

/-- The last line of a text and the first line of the next one are one line when the texts
are joined. -/
theorem exists_lines_append (t u : Text) :
    ∃ front last first behind, lines t = front ++ [last] ∧ lines u = first :: behind ∧
      lines (t ++ u) = front ++ (last ++ first) :: behind := by
  obtain ⟨first, behind, hu⟩ := List.exists_cons_of_ne_nil (splitWhere_ne_nil (· == '\n') u)
  -- By induction on the first text; its last line is not closed yet.
  induction t with
  | nil => exact ⟨[], [], first, behind, rfl, hu, hu⟩
  | cons c t ih =>
      obtain ⟨front, last, first', behind', ht, hu', hjoined⟩ := ih
      rw [lines] at ht hjoined
      by_cases hc : c = '\n'
      · refine ⟨[] :: front, last, first', behind', ?_, hu', ?_⟩
        · simp [lines, splitWhere, hc, ht]
        · simp [lines, splitWhere, hc, hjoined]
      · cases front with
        | nil =>
            refine ⟨[], c :: last, first', behind', ?_, hu', ?_⟩
            · simp [lines, splitWhere, hc, ht]
            · simp [lines, splitWhere, hc, hjoined]
        | cons line front =>
            refine ⟨(c :: line) :: front, last, first', behind', ?_, hu', ?_⟩
            · simp [lines, splitWhere, hc, ht]
            · simp [lines, splitWhere, hc, hjoined]

theorem isBlankText_of_subset {u : Text} (ht : isBlankText t = true) (hu : u ⊆ t) :
    isBlankText u = true :=
  List.all_eq_true.mpr fun c hc => List.all_eq_true.mp ht c (hu hc)

theorem map_strip_lines_subset_of_blank {front : Text} (hfront : isBlankText front = true) :
    (lines t).map strip ⊆ (lines (front ++ t)).map strip := by
  obtain ⟨ls, last, first, behind, hls, ht, hjoined⟩ := exists_lines_append front t
  have hlast : last ∈ lines front := by
    rw [hls]
    exact List.mem_append_right _ (List.mem_singleton_self last)
  have hstrip : strip (last ++ first) = strip first := by
    rw [strip, dropBlanks_append_of_blank
      (isBlankText_of_subset hfront (infix_of_mem_splitWhere hlast).subset)]
    rfl
  rw [ht, hjoined, List.map_append, List.map_cons, List.map_cons, hstrip]
  exact List.subset_append_right _ _

theorem map_strip_lines_subset_append {back : Text} (hback : isBlankText back = true) :
    (lines t).map strip ⊆ (lines (t ++ back)).map strip := by
  obtain ⟨ls, last, first, behind, ht, hls, hjoined⟩ := exists_lines_append t back
  have hfirst : first ∈ lines back := by
    rw [hls]
    exact List.mem_cons_self
  have hstrip : strip (last ++ first) = strip last := by
    rw [← strip_dropBlanksEnd, dropBlanksEnd_append_of_blank
      (isBlankText_of_subset hback (infix_of_mem_splitWhere hfirst).subset), strip_dropBlanksEnd]
  rw [ht, hjoined, List.map_append, List.map_append, List.map_singleton, List.map_cons, hstrip]
  exact List.append_subset.mpr ⟨List.subset_append_left _ _,
    List.cons_subset.mpr ⟨List.mem_append_right _ List.mem_cons_self, List.nil_subset _⟩⟩

/-- Trimming a text makes no trimmed line that was not there before. -/
theorem map_strip_lines_strip_subset (t : Text) :
    (lines (strip t)).map strip ⊆ (lines t).map strip := by
  obtain ⟨front, back, ht, hfront, hback⟩ := exists_eq_append_strip t
  have hinside := List.Subset.trans (map_strip_lines_subset_of_blank (t := strip t) hfront)
    (map_strip_lines_subset_append hback)
  rwa [← ht] at hinside

/-! ## Line ends -/

/-- Without a carriage return the line ends are line feeds already. -/
theorem unifyLineEnds_eq_self (ht : .char '\r' ∉ t) : unifyLineEnds t = t := by
  rw [unifyLineEnds]
  induction t with
  | nil => rfl
  | cons c t ih =>
      rw [List.mem_cons, not_or] at ht
      rw [unifyLineEndsFrom, if_neg (Ne.symm ht.1), Bool.and_false, if_neg (by decide), ih ht.2]

end Text
end Lifeline
