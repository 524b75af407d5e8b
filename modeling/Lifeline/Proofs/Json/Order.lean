import Lifeline.Json.Order
import Lifeline.Proofs.Sorting

/-!
# Texts in order

Texts are compared as the lists of their numbers, and so are JSON values that are
texts.  Sorting by such values is sorting by an order.
-/

namespace Lifeline.Json

/-- A text comes before another one in the order of their numbers. -/
theorem textBefore_iff {s t : Text} :
    textBefore s t = true ↔ s.map CodePoint.toNat < t.map CodePoint.toNat := by
  induction s generalizing t with
  | nil => cases t <;> simp [textBefore]
  | cons a s ih =>
      cases t with
      | nil => simp [textBefore]
      | cons b t =>
          rw [textBefore, List.map_cons, List.map_cons, List.cons_lt_cons_iff]
          by_cases hab : a = b
          · simp [hab, ih]
          · have hne : a.toNat ≠ b.toNat := fun hsame => hab (CodePoint.toNat_inj.mp hsame)
            simp [hab, hne]

theorem textBefore_eq_false_iff {s t : Text} :
    textBefore s t = false ↔ ¬ s.map CodePoint.toNat < t.map CodePoint.toNat := by
  rw [← textBefore_iff, Bool.not_eq_true]

/-- Elements are ordered by keys that are texts. -/
theorem orders_keys {α : Type} {key : α → Json} {p : α → Prop}
    (hkey : ∀ a, p a → ∃ t, key a = .str t) :
    Sorting.Orders (fun a b => before? (key a) (key b)) p where
  compares {a b} ha hb := by
    obtain ⟨s, hs⟩ := hkey a ha
    obtain ⟨t, ht⟩ := hkey b hb
    exact ⟨textBefore s t, by rw [hs, ht, before?]⟩
  asymm {a b} ha hb := by
    obtain ⟨s, hs⟩ := hkey a ha
    obtain ⟨t, ht⟩ := hkey b hb
    simp only [hs, ht, before?, Option.some.injEq, textBefore_iff, textBefore_eq_false_iff]
    exact List.lt_asymm
  trans {a b c} ha hb hc := by
    obtain ⟨s, hs⟩ := hkey a ha
    obtain ⟨t, ht⟩ := hkey b hb
    obtain ⟨u, hu⟩ := hkey c hc
    simp only [hs, ht, hu, before?, Option.some.injEq, textBefore_eq_false_iff]
    exact fun hba hcb => List.not_lt.mpr (List.le_trans (List.not_lt.mp hba) (List.not_lt.mp hcb))

end Lifeline.Json
