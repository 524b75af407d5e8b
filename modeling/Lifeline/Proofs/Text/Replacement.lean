import Lifeline.Text.Search

/-!
# Replacement as a relation

`replaceAll` passes over a text with a count of characters still to be skipped.
Here it gets the equations one reasons with: an occurrence at the beginning is
replaced as a whole, any other character stays.  From these follows the
relation `Replaced`, which forgets which occurrences were chosen; it is enough
for every property that does not depend on that choice.
-/

namespace Lifeline.Text

variable {old new : Text}

private theorem replaceFrom_append_of_length {skip : Nat} {passed : Text}
    (hlength : passed.length = skip) (t : Text) :
    replaceFrom old new skip (passed ++ t) = replaceFrom old new 0 t := by
  induction passed generalizing skip with
  | nil =>
      subst hlength
      rfl
  | cons c passed ih =>
      obtain rfl : passed.length + 1 = skip := hlength
      exact ih rfl

/-- An occurrence at the beginning is replaced as a whole. -/
theorem replaceAll_append (hold : old ≠ []) (t : Text) :
    replaceAll old new (old ++ t) = new ++ replaceAll old new t := by
  obtain ⟨c, w, rfl⟩ := List.exists_cons_of_ne_nil hold
  have hprefix : (c :: w).isPrefixOf (c :: (w ++ t)) = true := by
    simp [List.isPrefixOf_iff_prefix]
  rw [replaceAll, List.cons_append, replaceFrom, if_pos hprefix]
  rw [replaceFrom_append_of_length (by simp)]
  rfl

/-- A character at which no occurrence begins stays. -/
theorem replaceAll_cons {c : CodePoint} {t : Text} (h : ¬ old <+: c :: t) :
    replaceAll old new (c :: t) = c :: replaceAll old new t := by
  have hprefix : old.isPrefixOf (c :: t) = false := by
    rw [Bool.eq_false_iff]
    exact fun hp => h (List.isPrefixOf_iff_prefix.mp hp)
  rw [replaceAll, replaceFrom, hprefix]
  rfl

/-- A text is an occurrence with some text behind it, or a character at which no occurrence
begins, with some text behind it, or empty. -/
theorem replaceAll_induction {P : Text → Prop} (hold : old ≠ []) (nil : P [])
    (occurrence : ∀ rest, P rest → P (old ++ rest))
    (character : ∀ c rest, ¬ old <+: c :: rest → P rest → P (c :: rest)) (t : Text) : P t := by
  induction hn : t.length using Nat.strongRecOn generalizing t with
  | ind n ih =>
      subst hn
      cases t with
      | nil => exact nil
      | cons c t =>
          by_cases hprefix : old <+: c :: t
          · obtain ⟨rest, hrest⟩ := hprefix
            have hshorter : rest.length < (c :: t).length := by
              have hpositive := List.length_pos_iff.mpr hold
              rw [← hrest, List.length_append]
              omega
            rw [← hrest]
            exact occurrence rest (ih rest.length hshorter rest rfl)
          · exact character c t hprefix (ih t.length (by simp) t rfl)

/-- A text without occurrences stays. -/
theorem replaceAll_eq_self {t : Text} (h : ¬ old <:+: t) : replaceAll old new t = t := by
  induction t with
  | nil => rfl
  | cons c t ih =>
      have hhere : ¬ old <+: c :: t := fun hprefix => h hprefix.isInfix
      rw [replaceAll_cons hhere, ih fun hinside => h (List.infix_cons hinside)]

/-- Some occurrences of `old` in the first text, none overlapping another, are
`new` in the second text. -/
inductive Replaced (old new : Text) : Text → Text → Prop
  | nil : Replaced old new [] []
  | keep (c : CodePoint) {t u : Text} (h : Replaced old new t u) :
      Replaced old new (c :: t) (c :: u)
  | swap {t u : Text} (h : Replaced old new t u) : Replaced old new (old ++ t) (new ++ u)

theorem replaced_replaceAll (hold : old ≠ []) (t : Text) :
    Replaced old new t (replaceAll old new t) := by
  induction t using replaceAll_induction hold with
  | nil => exact Replaced.nil
  | occurrence rest ih =>
      rw [replaceAll_append hold]
      exact ih.swap
  | character c rest hprefix ih =>
      rw [replaceAll_cons hprefix]
      exact ih.keep c

theorem Replaced.isScalar {t u : Text} (h : Replaced old new t u) (hnew : new.isScalar = true)
    (ht : t.isScalar = true) : u.isScalar = true := by
  induction h with
  | nil => rfl
  | keep c hrest ih =>
      rw [isScalar_cons, Bool.and_eq_true] at ht ⊢
      exact ⟨ht.1, ih ht.2⟩
  | swap hrest ih =>
      rw [isScalar_append, Bool.and_eq_true] at ht ⊢
      exact ⟨hnew, ih ht.2⟩

theorem Replaced.length_le {t u : Text} (h : Replaced old new t u)
    (hshort : new.length ≤ old.length) : u.length ≤ t.length := by
  induction h with
  | nil => exact Nat.le_refl 0
  | keep c hrest ih => exact Nat.succ_le_succ ih
  | swap hrest ih =>
      rw [List.length_append, List.length_append]
      exact Nat.add_le_add hshort ih

end Lifeline.Text
