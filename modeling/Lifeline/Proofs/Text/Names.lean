import Lifeline.Proofs.Text.Trimming
import Lifeline.Text.Letter
import Lifeline.Text.Search
import Lifeline.Text.Word
import Mathlib.Data.List.TakeDrop

/-!
# Names made of word characters

No word character is white space, so a name has no white space at its ends.  A
keyword that ends at a mark reaches into a name in front of that mark as far as it
does when the name stands alone.
-/

namespace Lifeline.Text

variable {word name t rest : Text} {c d : CodePoint}

/-! ## Word characters -/

theorem ne_of_isWord (hc : isWord c = true) (hd : isWord d = false) : c ≠ d := by
  rintro rfl
  rw [hc] at hd
  contradiction

/-- The blank characters beyond the ASCII range. -/
def wideBlanks : List Nat :=
  [0x85, 0xA0, 0x1680, 0x2000, 0x2001, 0x2002, 0x2003, 0x2004, 0x2005, 0x2006, 0x2007, 0x2008,
    0x2009, 0x200A, 0x2028, 0x2029, 0x202F, 0x205F, 0x3000]

theorem not_inRanges_of_mem_wideBlanks :
    ∀ n ∈ wideBlanks, inRanges n wordRanges = false := by
  decide +kernel

theorem mem_wideBlanks (hblank : isBlank c = true) (hwide : 33 ≤ c.toNat) :
    c.toNat ∈ wideBlanks ∧ 128 ≤ c.toNat := by
  simp only [isBlank, Bool.or_eq_true, Bool.and_eq_true, decide_eq_true_eq, beq_iff_eq] at hblank
  simp only [wideBlanks, List.mem_cons, List.not_mem_nil, or_false]
  omega

theorem not_isWord_of_lt (h : c.toNat < 33) : isWord c = false := by
  have hall : ∀ n < 33, isWord (CodePoint.ofNat n) = false := by decide
  have hc := hall c.toNat h
  rwa [CodePoint.ofNat_toNat] at hc

/-- A word character is no white space. -/
theorem isBlank_of_isWord (h : isWord c = true) : isBlank c = false := by
  apply eq_false_of_ne_true
  intro hblank
  by_cases hlow : c.toNat < 33
  · rw [not_isWord_of_lt hlow] at h
    contradiction
  · obtain ⟨hmem, hwide⟩ := mem_wideBlanks hblank (Nat.le_of_not_lt hlow)
    rw [isWord, if_neg (Nat.not_lt_of_le hwide), not_inRanges_of_mem_wideBlanks _ hmem] at h
    contradiction

/-! ## Names -/

/-- A name: one word character or more. -/
structure IsName (t : Text) : Prop where
  ne_nil : t ≠ []
  isWord : ∀ c ∈ t, isWord c = true

theorem IsName.trim (h : IsName t) : Trim t :=
  trim_of_forall h.ne_nil fun c hc => isBlank_of_isWord (h.isWord c hc)

theorem IsName.notMem (h : IsName t) (hd : Text.isWord d = false) : d ∉ t :=
  fun hmem => ne_of_isWord (h.isWord d hmem) hd rfl

/-- A name ends where the characters that follow it begin. -/
theorem IsName.head_eq_of_append_eq (h : IsName t) {u : Text} {e : CodePoint} {rest' : Text}
    (hu : ∀ b ∈ u, Text.isWord b = true) (hd : Text.isWord d = false) (he : Text.isWord e = false)
    (heq : t ++ d :: rest = u ++ e :: rest') : d = e := by
  have htake : ∀ {v : Text} {b : CodePoint} {r : Text}, (∀ a ∈ v, Text.isWord a = true) →
      Text.isWord b = false → (v ++ b :: r).dropWhile Text.isWord = b :: r := by
    intro v b r hv hb
    rw [List.dropWhile_append_of_pos hv, List.dropWhile_cons_of_neg (by rw [hb]; decide)]
  have hdrop := @htake t d rest h.isWord hd
  rw [heq, htake hu he] at hdrop
  exact (List.cons.inj hdrop).1.symm

theorem IsName.exists_cons (h : IsName t) : ∃ c tail, t = c :: tail ∧ Text.isWord c = true := by
  obtain ⟨c, tail, rfl⟩ := List.exists_cons_of_ne_nil h.ne_nil
  exact ⟨c, tail, rfl, h.isWord c List.mem_cons_self⟩

/-! ## Names with hyphens -/

/-- A name of words that are joined by single hyphens. -/
inductive IsHyphenated : Text → Prop
  | word {t : Text} (h : IsName t) : IsHyphenated t
  | hyphen {word rest : Text} (hword : IsName word) (hrest : IsHyphenated rest) :
      IsHyphenated (word ++ .char '-' :: rest)

theorem IsHyphenated.exists_cons (h : IsHyphenated t) :
    ∃ c tail, t = c :: tail ∧ isWord c = true := by
  cases h with
  | word h => exact h.exists_cons
  | hyphen hword _ =>
      obtain ⟨c, tail, rfl, hc⟩ := hword.exists_cons
      exact ⟨c, _, rfl, hc⟩

theorem IsHyphenated.notMem (h : IsHyphenated t) (hd : isWord d = false) (hhyphen : d ≠ '-') :
    d ∉ t := by
  induction h with
  | word h => exact h.notMem hd
  | hyphen hword _ ih =>
      rw [List.mem_append, List.mem_cons, not_or, not_or]
      exact ⟨hword.notMem hd, hhyphen, ih⟩

/-- A hyphen in a name joins a word to what stands in front of it. -/
theorem IsHyphenated.exists_cons_behind {front : Text}
    (h : IsHyphenated (front ++ .char '-' :: rest)) :
    ∃ c tail, rest = c :: tail ∧ isWord c = true := by
  generalize ht : front ++ .char '-' :: rest = t at h
  induction h generalizing front with
  | word h =>
      rw [← ht] at h
      exact absurd (List.mem_append_right front List.mem_cons_self) (h.notMem (by decide))
  | @hyphen word more hword hmore ih =>
      rcases List.append_eq_append_iff.mp ht with ⟨left, hleft, hsame⟩ | ⟨left, hleft, hsame⟩
      · -- The hyphen does not stand in the first word.
        cases left with
        | nil =>
            rw [(List.cons.inj hsame).2]
            exact hmore.exists_cons
        | cons d left =>
            obtain ⟨rfl, -⟩ := List.cons.inj hsame
            rw [hleft] at hword
            exact absurd (List.mem_append_right front List.mem_cons_self)
              (hword.notMem (by decide))
      · cases left with
        | nil =>
            rw [← (List.cons.inj hsame).2]
            exact hmore.exists_cons
        | cons d left => exact ih (List.cons.inj hsame).2.symm

theorem IsHyphenated.not_isBlank (h : IsHyphenated t) (hc : c ∈ t) : isBlank c = false := by
  cases hword : isWord c with
  | true => exact isBlank_of_isWord hword
  | false =>
      by_cases hhyphen : c = '-'
      · rw [hhyphen]
        decide
      · exact absurd hc (h.notMem hword hhyphen)

/-! ## Reading a name -/

theorem atWordEnd_dropWhile (t : Text) : atWordEnd (t.dropWhile isWord) = true := by
  induction t with
  | nil => rfl
  | cons c t ih =>
      cases hc : isWord c with
      | true => rwa [List.dropWhile_cons_of_pos hc]
      | false => rw [List.dropWhile_cons_of_neg (by rw [hc]; decide), atWordEnd, hc, Bool.not_false]

theorem dropWhile_of_atWordEnd (h : atWordEnd rest = true) : rest.dropWhile isWord = rest := by
  cases rest with
  | nil => rfl
  | cons c rest =>
      rw [atWordEnd, Bool.not_eq_true'] at h
      exact List.dropWhile_cons_of_neg (by rw [h]; decide)

/-- The word that is read is a name, with all the word characters that stand together. -/
theorem word?_eq_some_iff :
    word? t = some (word, rest) ↔ t = word ++ rest ∧ IsName word ∧ atWordEnd rest = true := by
  rw [word?, List.span_eq_takeWhile_dropWhile]
  constructor
  · intro h
    split at h
    · contradiction
    · rename_i c w behind hspan
      obtain ⟨rfl, rfl⟩ := Prod.mk.inj (Option.some.inj h)
      obtain ⟨hword, rfl⟩ := Prod.mk.inj hspan
      refine ⟨?_, ⟨List.cons_ne_nil c w, ?_⟩, atWordEnd_dropWhile t⟩
      · rw [← hword, List.takeWhile_append_dropWhile]
      · rw [← hword]
        exact fun d hd => List.mem_takeWhile_imp hd
  · rintro ⟨rfl, hword, hrest⟩
    obtain ⟨c, w, rfl⟩ := List.exists_cons_of_ne_nil hword.ne_nil
    have hdrop := dropWhile_of_atWordEnd hrest
    -- Where the word ends no word character goes on.
    have htake : rest.takeWhile isWord = [] := by
      have hsplit := List.takeWhile_append_dropWhile (p := isWord) (l := rest)
      rw [hdrop] at hsplit
      exact List.append_left_eq_self.mp hsplit
    rw [List.takeWhile_append_of_pos hword.isWord, List.dropWhile_append_of_pos hword.isWord,
      hdrop, htake, List.append_nil]

/-! ## Keywords in front of a mark -/

/-- A keyword without the mark reaches into the name in front of it only. -/
theorem afterKeyword?_append (hword : ∀ w ∈ word, isLetter w c = false) (name rest : Text) :
    afterKeyword? word (name ++ c :: rest) =
      (afterKeyword? word name).map fun behind => behind ++ c :: rest := by
  induction word generalizing name with
  | nil => simp
  | cons w word ih =>
      obtain ⟨hw, hword⟩ := List.forall_mem_cons.mp hword
      cases name with
      | nil => simp [afterKeyword?, hw]
      | cons d name =>
          by_cases hd : isLetter w d = true
          · simp only [List.cons_append, afterKeyword?, if_pos hd, ih hword name]
          · simp only [List.cons_append, afterKeyword?, if_neg hd, Option.map_none]

/-- A word in small letters is found in front of a text, however it is written there. -/
theorem afterKeyword?_append_self (h : afterKeyword? word name = some []) (rest : Text) :
    afterKeyword? word (name ++ rest) = some rest := by
  induction word generalizing name with
  | nil =>
      rw [afterKeyword?_nil] at h
      rw [Option.some.inj h, List.nil_append, afterKeyword?_nil]
  | cons w word ih =>
      cases name with
      | nil => contradiction
      | cons d name =>
          rw [afterKeyword?] at h
          split at h
          · rename_i hd
            rw [List.cons_append, afterKeyword?, if_pos hd, ih h]
          · contradiction

theorem after?_append (hword : c ∉ word) (name rest : Text) :
    after? word (name ++ c :: rest) =
      (after? word name).map fun behind => behind ++ c :: rest := by
  induction word generalizing name with
  | nil => simp
  | cons w word ih =>
      rw [List.mem_cons, not_or] at hword
      obtain ⟨hw, hword⟩ := hword
      cases name with
      | nil => simp [after?, Ne.symm hw]
      | cons d name =>
          by_cases hd : w = d
          · simp only [List.cons_append, after?, if_pos hd, ih hword name]
          · simp only [List.cons_append, after?, if_neg hd, Option.map_none]

theorem afterKeyword?_suffix (h : afterKeyword? word t = some rest) : rest <:+ t :=
  ⟨_, (eq_take_append_of_afterKeyword? h).1.symm⟩

/-- Behind a part of a name and a mark, a word ends only if that part is empty. -/
theorem atWordEnd_append (ht : ∀ b ∈ t, isWord b = true) (hc : isWord c = false) (rest : Text) :
    atWordEnd (t ++ c :: rest) = t.isEmpty := by
  cases t with
  | nil => simp [atWordEnd, hc]
  | cons b t => simp [atWordEnd, ht b List.mem_cons_self]

end Lifeline.Text
