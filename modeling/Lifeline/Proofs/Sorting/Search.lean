import Lifeline.Proofs.Sorting.Order

/-!
# Counting at the front of a list

Both ways of counting, by halving and by leaps, find the place where a list
splits into elements that have a property and elements that do not have it.  In
a run such a place exists for the elements that go before a given one,
and for those that may stand before it.
-/

namespace Lifeline.Sorting

variable {α : Type} {less? : α → α → Option Bool} {p : α → Prop} {x : α}
  {q : α → Option Bool} {d : Direction} {l front back : List α} {fuel known : Nat}

/-- A property holds of all elements of the first list and of none of the
second. -/
structure Splits (q : α → Option Bool) (front back : List α) : Prop where
  front_true : ∀ x ∈ front, q x = some true
  back_false : ∀ x ∈ back, q x = some false

theorem Splits.of_subset {front' back' : List α} (h : Splits q front back)
    (hfront : front' ⊆ front) (hback : back' ⊆ back) : Splits q front' back' :=
  ⟨fun x hx => h.front_true x (hfront hx), fun x hx => h.back_false x (hback hx)⟩

theorem Direction.middle_lt (d : Direction) {n : Nat} (hn : 0 < n) : d.middle n < n := by
  cases d with
  | forward =>
      show n / 2 < n
      omega
  | backward =>
      show (n - 1) / 2 < n
      omega

/-- Halving finds the place where a list splits. -/
theorem halve?_eq (h : Splits q front back) (hfuel : (front ++ back).length ≤ fuel) :
    halve? d q fuel (front ++ back) = some front.length := by
  induction fuel generalizing front back with
  | zero =>
      obtain ⟨rfl, rfl⟩ := List.append_eq_nil_iff.mp
        (List.eq_nil_of_length_eq_zero (Nat.le_zero.mp hfuel))
      rfl
  | succ fuel ih =>
      have hlt : 0 < (front ++ back).length →
          d.middle (front ++ back).length < (front ++ back).length := d.middle_lt
      rw [halve?]
      generalize d.middle (front ++ back).length = n at hlt ⊢
      simp only [List.length_append] at hlt hfuel
      simp only [List.drop_append, List.take_append]
      -- The middle element belongs to the first part when something of it is left there.
      cases hfront : front.drop n with
      | cons y rest =>
          have hlength := congrArg List.length hfront
          simp only [List.length_drop, List.length_cons] at hlength
          have hy : y ∈ front := List.mem_of_mem_drop (hfront ▸ List.mem_cons_self)
          have hrest : rest ⊆ front := fun x hx =>
            List.mem_of_mem_drop (hfront ▸ List.mem_cons_of_mem y hx)
          have hzero : n - front.length = 0 := by omega
          rw [hzero, List.drop_zero, List.cons_append]
          simp only [h.front_true y hy]
          rw [ih (h.of_subset hrest (List.Subset.refl back)) (by simp; omega), Option.map_some]
          congr 1
          omega
      | nil =>
          have hle : front.length ≤ n := List.drop_eq_nil_iff.mp hfront
          rw [List.nil_append]
          cases hback : back.drop (n - front.length) with
          | nil =>
              have hshort : back.length ≤ n - front.length := List.drop_eq_nil_iff.mp hback
              have hnone : front.length = 0 := by omega
              rw [hnone]
          | cons y rest =>
              have hy : y ∈ back := List.mem_of_mem_drop (hback ▸ List.mem_cons_self)
              simp only [h.back_false y hy]
              rw [List.take_of_length_le hle]
              refine ih (h.of_subset (List.Subset.refl front) (List.take_subset _ back)) ?_
              have hlength := congrArg List.length hback
              simp only [List.length_drop, List.length_cons] at hlength
              simp only [List.length_append, List.length_take]
              omega

theorem countByHalving?_eq (h : Splits q front back) :
    countByHalving? d q (front ++ back) = some front.length :=
  halve?_eq h (Nat.le_refl _)

/-- Leaps find the place where a list splits, behind the elements that are known
to have the property. -/
theorem leap?_eq (h : Splits q front back) (hknown : 0 < known)
    (hfuel : (front ++ back).length ≤ fuel) :
    leap? d q fuel known (front ++ back) = some (known + front.length) := by
  induction fuel generalizing front back known with
  | zero =>
      obtain ⟨rfl, rfl⟩ := List.append_eq_nil_iff.mp
        (List.eq_nil_of_length_eq_zero (Nat.le_zero.mp hfuel))
      rfl
  | succ fuel ih =>
      rw [leap?]
      simp only [List.drop_append, List.take_append]
      -- The leap lands in the front, behind the whole list, or in the back.
      cases hfront : front.drop (known - 1) with
      | cons y rest =>
          have hlength := congrArg List.length hfront
          simp only [List.length_drop, List.length_cons] at hlength
          have hy : y ∈ front := List.mem_of_mem_drop (hfront ▸ List.mem_cons_self)
          have hrest : rest ⊆ front := fun x hx =>
            List.mem_of_mem_drop (hfront ▸ List.mem_cons_of_mem y hx)
          have hzero : known - 1 - front.length = 0 := by omega
          rw [hzero, List.drop_zero, List.cons_append]
          simp only [h.front_true y hy]
          simp only [List.length_append] at hfuel
          rw [ih (h.of_subset hrest (List.Subset.refl back)) (by omega) (by simp; omega)]
          congr 1
          omega
      | nil =>
          have hle : front.length ≤ known - 1 := List.drop_eq_nil_iff.mp hfront
          rw [List.nil_append]
          cases hback : back.drop (known - 1 - front.length) with
          | nil =>
              simp only
              rw [countByHalving?_eq h]
              rfl
          | cons y rest =>
              have hy : y ∈ back := List.mem_of_mem_drop (hback ▸ List.mem_cons_self)
              simp only [h.back_false y hy]
              rw [List.take_of_length_le hle, countByHalving?_eq
                (h.of_subset (List.Subset.refl front) (List.take_subset _ back))]
              rfl

theorem countByLeaps?_eq (h : Splits q front back) :
    countByLeaps? d q (front ++ back) = some front.length := by
  cases front with
  | nil =>
      cases back with
      | nil => rfl
      | cons y back =>
          rw [List.nil_append, countByLeaps?, h.back_false y List.mem_cons_self]
          rfl
  | cons y front =>
      rw [List.cons_append, countByLeaps?, h.front_true y List.mem_cons_self]
      have hrest := h.of_subset (List.subset_cons_self y front) (List.Subset.refl back)
      rw [leap?_eq hrest Nat.one_pos (Nat.le_refl _), List.length_cons, Nat.add_comm]

/-! ## Rising lists -/

/-- A list splits at a property when every element that has an answer has it as
soon as a later one does. -/
theorem exists_splits (hanswers : ∀ x ∈ l, ∃ answer, q x = some answer)
    (hl : l.Pairwise fun a b => q b = some true → q a = some true) :
    ∃ front back, l = front ++ back ∧ Splits q front back := by
  induction l with
  | nil => exact ⟨[], [], rfl, ⟨by simp, by simp⟩⟩
  | cons a l ih =>
      obtain ⟨⟨answer, ha⟩, hanswers'⟩ := List.forall_mem_cons.mp hanswers
      obtain ⟨hfirst, hrest⟩ := List.pairwise_cons.mp hl
      cases answer with
      | true =>
          obtain ⟨front, back, rfl, hsplits⟩ := ih hanswers' hrest
          refine ⟨a :: front, back, rfl, ⟨?_, hsplits.back_false⟩⟩
          exact List.forall_mem_cons.mpr ⟨ha, hsplits.front_true⟩
      | false =>
          refine ⟨[], a :: l, rfl, ⟨by simp, List.forall_mem_cons.mpr ⟨ha, fun b hb => ?_⟩⟩⟩
          obtain ⟨answer, hb'⟩ := hanswers' b hb
          cases answer with
          | true =>
              rw [hfirst b hb hb'] at ha
              contradiction
          | false => exact hb'

/-- The elements of a run that go before an element are at its front. -/
theorem Orders.splits_less (h : Orders less? p) (hl : IsRun less? p l) (hx : p x) :
    ∃ front back, l = front ++ back ∧ Splits (fun y => less? y x) front back := by
  apply exists_splits
  · exact fun y hy => h.compares (hl.mem y hy) hx
  · refine hl.rising.imp_of_mem fun {a b} ha hb hab hbx => ?_
    exact h.trans_left (hl.mem a ha) (hl.mem b hb) hx hab hbx

/-- The elements of a run that may stand before an element are at its front. -/
theorem Orders.splits_atMost (h : Orders less? p) (hl : IsRun less? p l) (hx : p x) :
    ∃ front back, l = front ++ back ∧ Splits (fun y => (less? x y).map not) front back := by
  apply exists_splits
  · intro y hy
    obtain ⟨answer, hanswer⟩ := h.compares hx (hl.mem y hy)
    exact ⟨!answer, by rw [hanswer, Option.map_some]⟩
  · refine hl.rising.imp_of_mem fun {a b} ha hb hab hbx => ?_
    have hxb : less? x b = some false := by simpa using hbx
    rw [h.trans (hl.mem a ha) (hl.mem b hb) hx hab hxb]
    rfl

/-- The elements of a run that an element may stand before are at its end. -/
theorem Orders.splits_end (h : Orders less? p) (hl : IsRun less? p l) (hx : p x) :
    ∃ front back, l = front ++ back ∧
      Splits (fun y => (less? y x).map not) back.reverse front.reverse := by
  obtain ⟨back, front, hreverse, hsplits⟩ := h.flip.splits_atMost hl.flip hx
  refine ⟨front.reverse, back.reverse, ?_, by simpa only [List.reverse_reverse] using hsplits⟩
  rw [← List.reverse_append, ← hreverse, List.reverse_reverse]

theorem Splits.less_eq_false (h : Splits (fun y => (less? x y).map not) front back) :
    ∀ y ∈ front, less? x y = some false := by
  intro y hy
  simpa using h.front_true y hy

theorem Splits.less_eq_true (h : Splits (fun y => (less? x y).map not) front back) :
    ∀ y ∈ back, less? x y = some true := by
  intro y hy
  simpa using h.back_false y hy

end Lifeline.Sorting
