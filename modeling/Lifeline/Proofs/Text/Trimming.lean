import Lifeline.Text.Blank
import Mathlib.Data.List.TakeWhile

/-!
# Trimming around a text

White space is dropped from the two ends of a text up to the first and the last
character that is none.  So what stands between two such characters is kept, and
the texts in front of it and behind it are trimmed on their own.
-/

namespace Lifeline.Text

variable {c : CodePoint} {t front back : Text} {p : CodePoint → Bool}

theorem dropWhile_append_cons (hc : p c = false) :
    (front ++ c :: back).dropWhile p = front.dropWhile p ++ c :: back := by
  induction front with
  | nil => simp [hc]
  | cons b front ih =>
      by_cases hb : p b = true
      · simp [hb, ih]
      · simp [hb]

theorem takeWhile_append_cons (hc : p c = false) :
    (front ++ c :: back).takeWhile p = front.takeWhile p := by
  induction front with
  | nil => simp [hc]
  | cons b front ih =>
      by_cases hb : p b = true
      · simp [hb, ih]
      · simp [hb]

/-- A text has no white space at its ends. -/
structure Trim (t : Text) : Prop where
  head : ∃ c, t.head? = some c ∧ isBlank c = false
  last : ∃ c, t.getLast? = some c ∧ isBlank c = false

/-- A text without white space that is not empty has none at its ends. -/
theorem trim_of_forall (hne : t ≠ []) (ht : ∀ c ∈ t, isBlank c = false) : Trim t where
  head := by
    obtain ⟨c, rest, rfl⟩ := List.exists_cons_of_ne_nil hne
    exact ⟨c, rfl, ht c List.mem_cons_self⟩
  last := ⟨t.getLast hne, List.getLast?_eq_some_getLast hne, ht _ (List.getLast_mem hne)⟩

theorem dropBlanks_append (ht : ∃ c, t.head? = some c ∧ isBlank c = false) (front : Text) :
    dropBlanks (front ++ t) = dropBlanks front ++ t := by
  obtain ⟨c, hhead, hc⟩ := ht
  obtain ⟨rest, rfl⟩ := List.head?_eq_some_iff.mp hhead
  exact dropWhile_append_cons hc

theorem dropBlanksEnd_append (ht : ∃ c, t.getLast? = some c ∧ isBlank c = false) (back : Text) :
    dropBlanksEnd (t ++ back) = t ++ dropBlanksEnd back := by
  obtain ⟨c, hlast, hc⟩ := ht
  obtain ⟨rest, rfl⟩ := List.getLast?_eq_some_iff.mp hlast
  have hturned : (rest ++ [c] ++ back).reverse = back.reverse ++ c :: rest.reverse := by simp
  rw [dropBlanksEnd, hturned, dropWhile_append_cons hc, dropBlanksEnd]
  simp

theorem strip_append (ht : Trim t) (front back : Text) :
    strip (front ++ (t ++ back)) = dropBlanks front ++ (t ++ dropBlanksEnd back) := by
  have hhead : ∃ c, (t ++ back).head? = some c ∧ isBlank c = false := by
    obtain ⟨c, hhead, hc⟩ := ht.head
    exact ⟨c, by rw [List.head?_append, hhead]; rfl, hc⟩
  have hlast : ∃ c, (dropBlanks front ++ t).getLast? = some c ∧ isBlank c = false := by
    obtain ⟨c, hlast, hc⟩ := ht.last
    exact ⟨c, by rw [List.getLast?_append, hlast]; rfl, hc⟩
  rw [strip, dropBlanks_append hhead, ← List.append_assoc, dropBlanksEnd_append hlast,
    List.append_assoc]

theorem dropBlanks_append_of_blank (hfront : isBlankText front = true) (t : Text) :
    dropBlanks (front ++ t) = dropBlanks t :=
  List.dropWhile_append_of_pos (List.all_eq_true.mp hfront)

theorem dropBlanksEnd_append_of_blank (hback : isBlankText back = true) (t : Text) :
    dropBlanksEnd (t ++ back) = dropBlanksEnd t := by
  have hturned : ∀ c ∈ back.reverse, isBlank c = true :=
    fun c hc => List.all_eq_true.mp hback c (List.mem_reverse.mp hc)
  rw [dropBlanksEnd, List.reverse_append, List.dropWhile_append_of_pos hturned, dropBlanksEnd]

theorem afterBlanks?_append (hfront : isBlankText front = true) (hne : front ≠ []) (t : Text) :
    afterBlanks? (front ++ t) = some (dropBlanks t) := by
  obtain ⟨c, front, rfl⟩ := List.exists_cons_of_ne_nil hne
  rw [isBlankText, List.all_cons, Bool.and_eq_true] at hfront
  rw [List.cons_append, afterBlanks?_cons_of_isBlank _ hfront.1,
    dropBlanks_append_of_blank hfront.2]

theorem exists_of_afterBlanks? {rest : Text} (h : afterBlanks? t = some rest) :
    ∃ gap, t = gap ++ rest ∧ isBlankText gap = true ∧ gap ≠ [] := by
  cases t with
  | nil => contradiction
  | cons c t =>
      rw [afterBlanks?] at h
      split at h
      · rename_i hc
        rw [← Option.some.inj h]
        refine ⟨c :: t.takeWhile isBlank, ?_, ?_, List.cons_ne_nil _ _⟩
        · rw [dropBlanks, List.cons_append, List.takeWhile_append_dropWhile]
        · rw [isBlankText, List.all_cons, hc, List.all_takeWhile, Bool.and_self]
      · contradiction

/-- Trimming drops the white space in front, so it makes no difference to drop it before. -/
theorem strip_dropBlanks (t : Text) : strip (dropBlanks t) = strip t := by
  have hagain : dropBlanks (dropBlanks t) = dropBlanks t := by
    induction t with
    | nil => rfl
    | cons c t ih =>
        cases hc : isBlank c with
        | true => rwa [dropBlanks_cons_of_isBlank t hc]
        | false =>
            rw [dropBlanks_cons_of_not_isBlank t hc, dropBlanks_cons_of_not_isBlank t hc]
  rw [strip, strip, hagain]

/-- White space around a text that has none at its ends is what trimming drops. -/
theorem strip_of_blank (hfront : isBlankText front = true) (hback : isBlankText back = true)
    (ht : Trim t) : strip (front ++ t ++ back) = t := by
  have hhead : dropBlanks front = [] := by
    rw [← List.append_nil front]
    exact dropBlanks_append_of_blank hfront []
  have hlast : dropBlanksEnd back = [] := by
    rw [← List.nil_append back]
    exact dropBlanksEnd_append_of_blank hback []
  rw [List.append_assoc, strip_append ht, hhead, hlast, List.append_nil, List.nil_append]

theorem strip_of_trim (ht : Trim t) : strip t = t := by
  have hstrip : strip ([] ++ t ++ []) = t := strip_of_blank rfl rfl ht
  rwa [List.append_nil, List.nil_append] at hstrip

/-! ## What trimming leaves -/

/-- A text is what trimming leaves of it, with white space around. -/
theorem exists_eq_append_strip (t : Text) :
    ∃ front back, t = front ++ strip t ++ back ∧ isBlankText front = true ∧
      isBlankText back = true := by
  refine ⟨t.takeWhile isBlank, ((dropBlanks t).reverse.takeWhile isBlank).reverse, ?_, ?_, ?_⟩
  · have hback : strip t ++ ((dropBlanks t).reverse.takeWhile isBlank).reverse = dropBlanks t := by
      rw [strip, dropBlanksEnd, ← List.reverse_append, List.takeWhile_append_dropWhile,
        List.reverse_reverse]
    rw [List.append_assoc, hback]
    exact List.takeWhile_append_dropWhile.symm
  · exact List.all_takeWhile
  · rw [isBlankText, List.all_reverse]
    exact List.all_takeWhile

theorem dropBlanksEnd_prefix (t : Text) : dropBlanksEnd t <+: t := by
  have hsuffix := List.dropWhile_suffix isBlank (l := t.reverse)
  have hprefix := List.reverse_prefix.mpr hsuffix
  rwa [List.reverse_reverse] at hprefix

theorem trim_strip (hne : strip t ≠ []) : Trim (strip t) where
  head := by
    have hprefix : strip t <+: dropBlanks t := dropBlanksEnd_prefix (dropBlanks t)
    obtain ⟨c, rest, hcons⟩ := List.exists_cons_of_ne_nil hne
    obtain ⟨more, hmore⟩ := hprefix
    have hhead := List.head?_dropWhile_not isBlank t
    rw [show t.dropWhile isBlank = dropBlanks t from rfl, ← hmore, hcons] at hhead
    exact ⟨c, by rw [hcons]; rfl, by simpa using hhead⟩
  last := by
    have hlast := List.head?_dropWhile_not isBlank (dropBlanks t).reverse
    rw [strip, dropBlanksEnd, ne_eq, List.reverse_eq_nil_iff] at hne
    obtain ⟨c, rest, hcons⟩ := List.exists_cons_of_ne_nil hne
    rw [hcons] at hlast
    refine ⟨c, ?_, by simpa using hlast⟩
    rw [strip, dropBlanksEnd, List.getLast?_reverse, hcons]
    rfl

theorem strip_strip (t : Text) : strip (strip t) = strip t := by
  by_cases hnil : strip t = []
  · rw [hnil, strip_nil]
  · exact strip_of_trim (trim_strip hnil)

theorem dropBlanksEnd_of_blank (ht : isBlankText t = true) : dropBlanksEnd t = [] := by
  rw [← List.nil_append t]
  exact dropBlanksEnd_append_of_blank ht []

theorem dropBlanksEnd_cons (ht : isBlankText t = false) (c : CodePoint) :
    dropBlanksEnd (c :: t) = c :: dropBlanksEnd t := by
  have hne : (t.reverse.dropWhile isBlank).isEmpty = false := by
    rw [← Bool.not_eq_true, List.isEmpty_iff, List.dropWhile_eq_nil_iff]
    intro hall
    rw [isBlankText, List.all_eq_true.mpr fun b hb => hall b (List.mem_reverse.mpr hb)] at ht
    contradiction
  rw [dropBlanksEnd, List.reverse_cons, List.dropWhile_append, hne, if_neg (by decide),
    List.reverse_append, dropBlanksEnd]
  rfl

theorem dropBlanks_eq_nil_iff : dropBlanks t = [] ↔ isBlankText t = true := by
  rw [dropBlanks, List.dropWhile_eq_nil_iff, isBlankText, List.all_eq_true]

theorem strip_eq_nil_iff : strip t = [] ↔ isBlankText t = true := by
  constructor
  · intro h
    obtain ⟨front, back, ht, hfront, hback⟩ := exists_eq_append_strip t
    rw [ht, h, List.append_nil, isBlankText, List.all_append, Bool.and_eq_true]
    exact ⟨hfront, hback⟩
  · intro h
    rw [strip, ← List.append_nil t, dropBlanks_append_of_blank h]
    rfl

/-- Trimming drops the white space at the end, so it makes no difference to drop it before. -/
theorem strip_dropBlanksEnd (t : Text) : strip (dropBlanksEnd t) = strip t := by
  by_cases hblank : isBlankText t = true
  · rw [dropBlanksEnd_of_blank hblank, strip_eq_nil_iff.mpr hblank, strip_nil]
  · have htrim : Trim (strip t) := trim_strip fun hnil => hblank (strip_eq_nil_iff.mp hnil)
    obtain ⟨front, back, ht, hfront, hback⟩ := exists_eq_append_strip t
    have hlast : ∃ c, (front ++ strip t).getLast? = some c ∧ isBlank c = false := by
      obtain ⟨c, hlast, hc⟩ := htrim.last
      exact ⟨c, by rw [List.getLast?_append, hlast]; rfl, hc⟩
    have hend : dropBlanksEnd t = front ++ strip t ++ [] :=
      calc
        dropBlanksEnd t = dropBlanksEnd (front ++ strip t ++ back) := congrArg dropBlanksEnd ht
        _ = dropBlanksEnd (front ++ strip t ++ []) := by
          rw [dropBlanksEnd_append_of_blank hback, List.append_nil]
        _ = front ++ strip t ++ [] := dropBlanksEnd_append hlast []
    rw [hend]
    exact strip_of_blank hfront rfl htrim

/-! ## Runs of white space -/

theorem collapseFrom_concat (hc : isBlank c = false) (inRun : Bool) (t : Text) :
    collapseFrom inRun (t ++ [c]) = collapseFrom inRun t ++ [c] := by
  induction t generalizing inRun with
  | nil => simp [collapseFrom, hc]
  | cons b t ih =>
      rw [List.cons_append, collapseFrom, collapseFrom, ih, ih]
      split
      · split <;> rfl
      · rfl

/-- Runs of white space inside a trimmed text do not touch its ends. -/
theorem Trim.collapseBlanks (h : Trim t) : Trim (collapseBlanks t) where
  head := by
    obtain ⟨c, hhead, hc⟩ := h.head
    obtain ⟨rest, rfl⟩ := List.head?_eq_some_iff.mp hhead
    exact ⟨c, by simp [Text.collapseBlanks, collapseFrom, hc], hc⟩
  last := by
    obtain ⟨c, hlast, hc⟩ := h.last
    obtain ⟨front, rfl⟩ := List.getLast?_eq_some_iff.mp hlast
    exact ⟨c, by rw [Text.collapseBlanks, collapseFrom_concat hc]; simp, hc⟩

end Lifeline.Text
