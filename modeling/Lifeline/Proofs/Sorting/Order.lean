import Lifeline.Sorting

/-!
# Orders and sorted arrangements

Sorting is right for an order that compares any two of the elements that are
sorted.  What is asked of a result is said by `SortsTo`: it holds the same
elements, none of them stands behind one that it goes before, and those that are
tied keep their places among themselves.  The last part is stated on the elements
that are tied with a given one (`Arranges.ties`), so that it is carried along by
equations between lists.
-/

namespace Lifeline.Sorting

variable {α : Type} {less? : α → α → Option Bool} {p : α → Prop} {a b c x : α}
  {l l' l₁ l₁' l₂ l₂' front back : List α}

/-- An order that compares any two elements with a property.  Of two elements one
at most goes before the other, and a chain of elements that may stand in a row
may be shortened. -/
structure Orders (less? : α → α → Option Bool) (p : α → Prop) : Prop where
  compares : ∀ {a b}, p a → p b → ∃ answer, less? a b = some answer
  asymm : ∀ {a b}, p a → p b → less? a b = some true → less? b a = some false
  trans : ∀ {a b c}, p a → p b → p c → less? b a = some false → less? c b = some false →
    less? c a = some false

/-- The first element may stand before the second one. -/
def atMost (less? : α → α → Option Bool) (a b : α) : Bool :=
  less? b a == some false

/-- Neither of two elements goes before the other. -/
def tied (less? : α → α → Option Bool) (a b : α) : Bool :=
  less? a b == some false && less? b a == some false

/-- No element of the list goes before an earlier one. -/
def Rising (less? : α → α → Option Bool) (l : List α) : Prop :=
  l.Pairwise fun a b => less? b a = some false

/-- A rising list of elements with a property. -/
structure IsRun (less? : α → α → Option Bool) (p : α → Prop) (l : List α) : Prop where
  mem : ∀ x ∈ l, p x
  rising : Rising less? l

/-- The second list holds the elements of the first one, and those that are tied
with a given one in the same order. -/
structure Arranges (less? : α → α → Option Bool) (p : α → Prop) (l l' : List α) : Prop where
  perm : l'.Perm l
  ties : ∀ {z}, p z → l'.filter (tied less? z) = l.filter (tied less? z)

/-- The second list is what sorting the first one comes to. -/
structure SortsTo (less? : α → α → Option Bool) (p : α → Prop) (l l' : List α) : Prop
    extends Arranges less? p l l' where
  rising : Rising less? l'

/-! ## Orders -/

namespace Orders

theorem eq_true_or_eq_false (h : Orders less? p) (ha : p a) (hb : p b) :
    less? a b = some true ∨ less? a b = some false := by
  obtain ⟨answer, hanswer⟩ := h.compares ha hb
  cases answer with
  | true => exact Or.inl hanswer
  | false => exact Or.inr hanswer

theorem irrefl (h : Orders less? p) (ha : p a) : less? a a = some false := by
  rcases h.eq_true_or_eq_false ha ha with haa | haa
  · exact h.asymm ha ha haa
  · exact haa

/-- What goes before an element goes before all that may stand behind it. -/
theorem trans_right (h : Orders less? p) (ha : p a) (hb : p b) (hc : p c)
    (hab : less? a b = some true) (hbc : less? c b = some false) : less? a c = some true := by
  rcases h.eq_true_or_eq_false ha hc with hac | hac
  · exact hac
  · have hba := h.trans hb hc ha hbc hac
    rw [hab] at hba
    contradiction

/-- What may stand before an element goes before all that this one goes
before. -/
theorem trans_left (h : Orders less? p) (ha : p a) (hb : p b) (hc : p c)
    (hab : less? b a = some false) (hbc : less? b c = some true) : less? a c = some true := by
  rcases h.eq_true_or_eq_false ha hc with hac | hac
  · exact hac
  · have hbc' := h.trans hc ha hb hac hab
    rw [hbc] at hbc'
    contradiction

/-- The same order read from the end. -/
theorem flip (h : Orders less? p) : Orders (fun a b => less? b a) p where
  compares ha hb := h.compares hb ha
  asymm ha hb hab := h.asymm hb ha hab
  trans ha hb hc hba hcb := h.trans hc hb ha hcb hba

end Orders

theorem rising_append_iff : Rising less? (front ++ back) ↔
    Rising less? front ∧ Rising less? back ∧ ∀ a ∈ front, ∀ b ∈ back, less? b a = some false :=
  List.pairwise_append

theorem Rising.flip (h : Rising less? l) : Rising (fun a b => less? b a) l.reverse :=
  List.pairwise_reverse.mpr h

/-! ## Runs -/

namespace IsRun

theorem sublist (h : IsRun less? p l) (hsub : l'.Sublist l) : IsRun less? p l' :=
  ⟨fun x hx => h.mem x (hsub.subset hx), h.rising.sublist hsub⟩

theorem of_append_left (h : IsRun less? p (front ++ back)) : IsRun less? p front :=
  h.sublist (List.sublist_append_left front back)

theorem of_append_right (h : IsRun less? p (front ++ back)) : IsRun less? p back :=
  h.sublist (List.sublist_append_right front back)

theorem flip (h : IsRun less? p l) : IsRun (fun a b => less? b a) p l.reverse :=
  ⟨fun x hx => h.mem x (List.mem_reverse.mp hx), h.rising.flip⟩

/-- The head of a run may stand before all of it. -/
theorem head_atMost (h : IsRun less? p l) (horder : Orders less? p) (hhead : l.head? = some a) :
    ∀ b ∈ l, less? b a = some false := by
  obtain ⟨rest, rfl⟩ := List.head?_eq_some_iff.mp hhead
  refine List.forall_mem_cons.mpr ⟨?_, (List.pairwise_cons.mp h.rising).1⟩
  exact horder.irrefl (h.mem a List.mem_cons_self)

/-- All of a run may stand before its last element. -/
theorem atMost_getLast (h : IsRun less? p l) (horder : Orders less? p)
    (hlast : l.getLast? = some a) : ∀ b ∈ l, less? a b = some false := by
  have ha := h.mem a (List.mem_of_getLast? hlast)
  obtain ⟨front, rfl⟩ := List.getLast?_eq_some_iff.mp hlast
  intro b hb
  rcases List.mem_append.mp hb with hb | hb
  · exact (rising_append_iff.mp h.rising).2.2 b hb a List.mem_cons_self
  · rw [List.mem_singleton.mp hb]
    exact horder.irrefl ha

end IsRun

theorem tied_flip (less? : α → α → Option Bool) : tied (fun a b => less? b a) = tied less? := by
  funext a b
  exact Bool.and_comm _ _

/-! ## Arrangements -/

namespace Arranges

theorem refl (l : List α) : Arranges less? p l l :=
  ⟨.refl l, fun _ => rfl⟩

theorem trans (h₁ : Arranges less? p l l₁) (h₂ : Arranges less? p l₁ l₂) :
    Arranges less? p l l₂ :=
  ⟨h₂.perm.trans h₁.perm, fun hz => (h₂.ties hz).trans (h₁.ties hz)⟩

theorem append (h₁ : Arranges less? p l₁ l₁') (h₂ : Arranges less? p l₂ l₂') :
    Arranges less? p (l₁ ++ l₂) (l₁' ++ l₂') :=
  ⟨h₁.perm.append h₂.perm, fun hz => by
    rw [List.filter_append, List.filter_append, h₁.ties hz, h₂.ties hz]⟩

theorem cons (x : α) (h : Arranges less? p l l') : Arranges less? p (x :: l) (x :: l') :=
  (refl [x]).append h

/-- What holds of all elements holds of them in their new places. -/
theorem forall_mem {q : α → Prop} (h : Arranges less? p l l') (hl : ∀ x ∈ l, q x) :
    ∀ x ∈ l', q x :=
  fun x hx => hl x (h.perm.mem_iff.mp hx)

theorem flip (h : Arranges less? p l l') :
    Arranges (fun a b => less? b a) p l.reverse l'.reverse := by
  refine ⟨(l'.reverse_perm.trans h.perm).trans l.reverse_perm.symm, fun {z} hz => ?_⟩
  rw [tied_flip, List.filter_reverse, List.filter_reverse, h.ties hz]

/-- Two stretches change places when each element of the second one goes before
each of the first one. -/
theorem swap (h : Orders less? p) (hfront : ∀ a ∈ front, p a) (hback : ∀ b ∈ back, p b)
    (hless : ∀ a ∈ front, ∀ b ∈ back, less? b a = some true) :
    Arranges less? p (front ++ back) (back ++ front) := by
  refine ⟨List.perm_append_comm, fun {z} hz => ?_⟩
  rw [List.filter_append, List.filter_append]
  -- No element is tied both with one of the first stretch and with one of the second.
  cases htieds : front.filter (tied less? z) with
  | nil => rw [List.append_nil, List.nil_append]
  | cons a rest =>
      obtain ⟨ha, haz⟩ := List.mem_filter.mp (htieds ▸ List.mem_cons_self)
      have hnil : back.filter (tied less? z) = [] := by
        rw [List.filter_eq_nil_iff]
        intro b hb hbz
        simp only [tied, Bool.and_eq_true, beq_iff_eq] at haz hbz
        have hba := h.trans (hfront a ha) hz (hback b hb) haz.1 hbz.2
        rw [hless a ha b hb] at hba
        contradiction
      rw [hnil, List.append_nil, List.nil_append]

/-- A stretch in which each element goes before the earlier ones is turned
round. -/
theorem reverse_of_falling (h : Orders less? p) (hl : ∀ x ∈ l, p x)
    (hfalling : l.Pairwise fun a b => less? b a = some true) :
    Arranges less? p l l.reverse := by
  induction l with
  | nil => exact refl []
  | cons a l ih =>
      obtain ⟨ha, hrest⟩ := List.pairwise_cons.mp hfalling
      have hmem := List.forall_mem_cons.mp hl
      have hturned := (ih hmem.2 hrest).cons a
      rw [List.reverse_cons]
      have hswap : Arranges less? p ([a] ++ l.reverse) (l.reverse ++ [a]) :=
        swap h (by simpa using hmem.1) (by simpa using hmem.2) (by simpa using ha)
      exact hturned.trans hswap

end Arranges

namespace SortsTo

theorem of_rising (h : Rising less? l) : SortsTo less? p l l :=
  ⟨.refl l, h⟩

theorem isRun (h : SortsTo less? p l l') (hl : ∀ x ∈ l, p x) : IsRun less? p l' :=
  ⟨h.toArranges.forall_mem hl, h.rising⟩

theorem of_arranges (h : SortsTo less? p l₁ l₂) (harranges : Arranges less? p l l₁) :
    SortsTo less? p l l₂ :=
  ⟨harranges.trans h.toArranges, h.rising⟩

theorem cons (hx : ∀ a ∈ l, less? a x = some false) (h : SortsTo less? p l l') :
    SortsTo less? p (x :: l) (x :: l') :=
  ⟨h.toArranges.cons x, List.pairwise_cons.mpr ⟨h.toArranges.forall_mem hx, h.rising⟩⟩

/-- The middle one of three stretches is sorted, between smaller and greater
elements. -/
theorem between {small great : List α} (h : SortsTo less? p l l')
    (hrising : Rising less? (small ++ great))
    (hsmall : ∀ a ∈ small, ∀ b ∈ l, less? b a = some false)
    (hgreat : ∀ b ∈ l, ∀ c ∈ great, less? c b = some false) :
    SortsTo less? p (small ++ l ++ great) (small ++ l' ++ great) := by
  refine ⟨((Arranges.refl small).append h.toArranges).append (.refl great), ?_⟩
  obtain ⟨hsmalls, hgreats, hacross⟩ := rising_append_iff.mp hrising
  have hfront : Rising less? (small ++ l') := by
    refine rising_append_iff.mpr ⟨hsmalls, h.rising, fun a ha => ?_⟩
    exact h.toArranges.forall_mem (hsmall a ha)
  refine rising_append_iff.mpr ⟨hfront, hgreats, fun a ha c hc => ?_⟩
  rcases List.mem_append.mp ha with ha | ha
  · exact hacross a ha c hc
  · exact hgreat a (h.toArranges.perm.mem_iff.mp ha) c hc

theorem flip (h : SortsTo less? p l l') :
    SortsTo (fun a b => less? b a) p l.reverse l'.reverse :=
  ⟨h.toArranges.flip, h.rising.flip⟩

end SortsTo

/-! ## Merging in one go -/

section Merge

variable {le : α → α → Bool} {later : List α}

/-- The elements of the first list that may stand before the head of the second
one are taken first. -/
theorem merge_append_left (hfront : ∀ a ∈ front, le a b = true) :
    List.merge (front ++ back) (b :: later) le = front ++ List.merge back (b :: later) le := by
  induction front with
  | nil => rfl
  | cons a front ih =>
      obtain ⟨ha, hrest⟩ := List.forall_mem_cons.mp hfront
      rw [List.cons_append, List.cons_merge_cons_pos _ _ _ ha, ih hrest]
      rfl

/-- The elements of the second list that the head of the first one may not stand
before are taken first. -/
theorem merge_append_right (hfront : ∀ b ∈ front, le a b = false) :
    List.merge (a :: later) (front ++ back) le = front ++ List.merge (a :: later) back le := by
  induction front with
  | nil => rfl
  | cons b front ih =>
      obtain ⟨hb, hrest⟩ := List.forall_mem_cons.mp hfront
      have hb' : ¬ le a b = true := by simp [hb]
      rw [List.cons_append, List.cons_merge_cons_neg _ _ _ hb', ih hrest]
      rfl

end Merge

/-- Two runs are merged into a sorted list. -/
theorem sortsTo_merge (h : Orders less? p) (hfront : IsRun less? p front)
    (hback : IsRun less? p back) :
    SortsTo less? p (front ++ back) (List.merge front back (atMost less?)) := by
  -- By induction on both runs, as the merge takes a head of one or of the other.
  induction front generalizing back with
  | nil => simpa using SortsTo.of_rising hback.rising
  | cons a front ihfront =>
  induction back with
  | nil => simpa using SortsTo.of_rising hfront.rising
  | cons b back ihback =>
      have ha : p a := hfront.mem a List.mem_cons_self
      have hb : p b := hback.mem b List.mem_cons_self
      have ha_le := hfront.head_atMost h rfl
      have hb_le := hback.head_atMost h rfl
      rcases h.eq_true_or_eq_false hb ha with hba | hba
      · -- The head of the second list goes before the whole first one.
        have hbfront : ∀ x ∈ a :: front, less? b x = some true := fun x hx =>
          h.trans_right hb ha (hfront.mem x hx) hba (ha_le x hx)
        have hbelow : ∀ x ∈ a :: front ++ back, less? x b = some false := by
          intro x hx
          rcases List.mem_append.mp hx with hx | hx
          · exact h.asymm hb (hfront.mem x hx) (hbfront x hx)
          · exact hb_le x (List.mem_cons_of_mem b hx)
        have hle : ¬ atMost less? a b = true := by simp [atMost, hba]
        rw [List.cons_merge_cons_neg _ _ _ hle]
        have hsorts := ihback (hback.sublist (List.sublist_cons_self b back))
        refine (hsorts.cons hbelow).of_arranges ?_
        have hswap : Arranges less? p (a :: front ++ [b]) ([b] ++ (a :: front)) :=
          .swap h hfront.mem (by simpa using hb) (by simpa using hbfront)
        simpa using hswap.append (.refl back)
      · have hle : atMost less? a b = true := by simp [atMost, hba]
        rw [List.cons_merge_cons_pos _ _ _ hle]
        refine (ihfront (hfront.sublist (List.sublist_cons_self a front)) hback).cons ?_
        intro x hx
        rcases List.mem_append.mp hx with hx | hx
        · exact ha_le x (List.mem_cons_of_mem a hx)
        · exact h.trans ha hb (hback.mem x hx) hba (hb_le x hx)

end Lifeline.Sorting
