import Lifeline.Text.Matching
import Mathlib.Data.List.TakeDrop

/-!
# What readers with alternatives find

A reader that tries short candidates first stops at the first place where the rest
makes sense, so it takes a piece whole when no rest that begins with one of its
characters does.  It finds something whenever there is something to find.
-/

namespace Lifeline.Text

variable {α : Type} {inClass : CodePoint → Bool} {next : Text → Option α} {t taken rest name : Text}
  {c : CodePoint} {a : α}

/-! ## Few characters -/

/-- A piece is taken whole when there is no stopping inside it. -/
theorem fewest_append_of_suffix (hclass : ∀ c ∈ taken, inClass c = true)
    (hskip : ∀ back, back <:+ taken → back ≠ [] → next (back ++ rest) = none)
    (hnext : next rest = some a) : fewest inClass next (taken ++ rest) = some (taken, a) := by
  induction taken with
  | nil => cases rest <;> simp [fewest, hnext]
  | cons c taken ih =>
      obtain ⟨hc, hclass⟩ := List.forall_mem_cons.mp hclass
      have hstop : next (c :: (taken ++ rest)) = none :=
        hskip (c :: taken) (List.suffix_refl _) (List.cons_ne_nil c taken)
      have hlater : ∀ back, back <:+ taken → back ≠ [] → next (back ++ rest) = none :=
        fun back hback => hskip back (hback.trans (List.suffix_cons c taken))
      rw [List.cons_append, fewest, hstop, if_pos hc, ih hclass hlater]
      rfl

/-- The first character is taken without asking for a stop in front of it. -/
theorem fewestSome_append_of_suffix (htaken : taken ≠ []) (hclass : ∀ c ∈ taken, inClass c = true)
    (hskip : ∀ back, back <:+ taken.tail → back ≠ [] → next (back ++ rest) = none)
    (hnext : next rest = some a) : fewestSome inClass next (taken ++ rest) = some (taken, a) := by
  obtain ⟨c, taken, rfl⟩ := List.exists_cons_of_ne_nil htaken
  obtain ⟨hc, hclass⟩ := List.forall_mem_cons.mp hclass
  rw [List.cons_append, fewestSome, if_pos hc, fewest_append_of_suffix hclass hskip hnext]
  rfl

theorem fewestSome_append (htaken : taken ≠ []) (hclass : ∀ c ∈ taken, inClass c = true)
    (hskip : ∀ c ∈ taken, ∀ u, next (c :: u) = none) (hnext : next rest = some a) :
    fewestSome inClass next (taken ++ rest) = some (taken, a) := by
  refine fewestSome_append_of_suffix htaken hclass (fun back hback hne => ?_) hnext
  obtain ⟨c, back, rfl⟩ := List.exists_cons_of_ne_nil hne
  exact hskip c (List.mem_of_mem_tail (hback.subset List.mem_cons_self)) (back ++ rest)

theorem fewestSome_eq_some (h : fewestSome inClass next t = some (taken, a)) :
    ∃ rest, t = taken ++ rest ∧ next rest = some a ∧ taken ≠ [] ∧ taken.all inClass = true := by
  cases t with
  | nil => contradiction
  | cons c u =>
      by_cases hc : inClass c = true
      · rw [fewestSome, if_pos hc, Option.map_eq_some_iff] at h
        obtain ⟨⟨behind, b⟩, hfewest, heq⟩ := h
        obtain ⟨rfl, rfl⟩ := Prod.mk.inj heq
        obtain ⟨rest, rfl, hnext, hall⟩ := fewest_eq_some hfewest
        refine ⟨rest, rfl, hnext, List.cons_ne_nil _ _, ?_⟩
        rw [List.all_cons, hc, hall, Bool.and_self]
      · rw [fewestSome, if_neg hc] at h
        contradiction

theorem exists_fewest (hclass : ∀ c ∈ taken, inClass c = true) (hnext : next rest = some a) :
    ∃ found, fewest inClass next (taken ++ rest) = some found := by
  induction taken with
  | nil => cases rest <;> simp [fewest, hnext]
  | cons c taken ih =>
      obtain ⟨hc, hclass⟩ := List.forall_mem_cons.mp hclass
      obtain ⟨found, hfound⟩ := ih hclass
      rw [List.cons_append, fewest, if_pos hc, hfound]
      cases hstop : next (c :: (taken ++ rest)) with
      | none => exact ⟨_, rfl⟩
      | some b => exact ⟨_, rfl⟩

/-- Where some piece could be taken, some piece is taken. -/
theorem exists_fewestSome (htaken : taken ≠ []) (hclass : ∀ c ∈ taken, inClass c = true)
    (hnext : next rest = some a) :
    ∃ found, fewestSome inClass next (taken ++ rest) = some found := by
  obtain ⟨c, taken, rfl⟩ := List.exists_cons_of_ne_nil htaken
  obtain ⟨hc, hclass⟩ := List.forall_mem_cons.mp hclass
  obtain ⟨found, hfound⟩ := exists_fewest hclass hnext
  rw [List.cons_append, fewestSome, if_pos hc, hfound]
  exact ⟨_, rfl⟩

/-! ## Many characters -/

/-- A run of the class is passed over when the rest makes sense behind it. -/
theorem most_append (htaken : ∀ c ∈ taken, inClass c = true)
    (hrest : ∀ c, rest.head? = some c → inClass c = false) (hnext : next rest = some a) :
    most inClass next (taken ++ rest) = some a := by
  induction taken with
  | nil =>
      cases rest with
      | nil => exact hnext
      | cons c u =>
          have hc : inClass c = false := hrest c rfl
          rw [List.nil_append, most, if_neg (by rw [hc]; decide), hnext]
  | cons c taken ih =>
      obtain ⟨hc, htaken⟩ := List.forall_mem_cons.mp htaken
      rw [List.cons_append, most, if_pos hc, ih htaken]

theorem exists_of_most_eq_some (h : most inClass next t = some a) :
    ∃ rest, rest <:+ t ∧ next rest = some a := by
  induction t with
  | nil => exact ⟨[], List.suffix_refl [], h⟩
  | cons c t ih =>
      rw [most] at h
      split at h
      · cases hrest : most inClass next t with
        | none =>
            rw [hrest] at h
            exact ⟨c :: t, List.suffix_refl _, h⟩
        | some b =>
            rw [hrest] at h
            obtain rfl := Option.some.inj h
            obtain ⟨rest, hsuffix, hnext⟩ := ih hrest
            exact ⟨rest, hsuffix.trans (List.suffix_cons c t), hnext⟩
      · exact ⟨c :: t, List.suffix_refl _, h⟩

theorem exists_of_mostSome_eq_some (h : mostSome inClass next t = some a) :
    ∃ rest, rest <:+ t ∧ next rest = some a := by
  cases t with
  | nil => contradiction
  | cons c t =>
      rw [mostSome] at h
      split at h
      · obtain ⟨rest, hsuffix, hnext⟩ := exists_of_most_eq_some h
        exact ⟨rest, hsuffix.trans (List.suffix_cons c t), hnext⟩
      · contradiction

/-! ## Runs -/

/-- A run of a class ends where something else begins. -/
theorem span_append (hname : ∀ c ∈ name, inClass c = true)
    (hrest : ∀ c, rest.head? = some c → inClass c = false) :
    (name ++ rest).span inClass = (name, rest) := by
  have hend : rest.takeWhile inClass = [] ∧ rest.dropWhile inClass = rest := by
    cases rest with
    | nil => exact ⟨rfl, rfl⟩
    | cons c rest => simp [hrest c rfl]
  rw [List.span_eq_takeWhile_dropWhile, List.takeWhile_append_of_pos hname,
    List.dropWhile_append_of_pos hname, hend.1, hend.2, List.append_nil]

theorem forall_ne_of_notMem (h : c ∉ t) : ∀ d ∈ t, decide (d ≠ c) = true :=
  fun _ hd => decide_eq_true (ne_of_mem_of_not_mem hd h)

/-! ## Quotes -/

theorem quoted?_cons (hc : c ≠ '"') (t : Text) : quoted? (c :: t) = none := by
  unfold quoted?
  split
  · rename_i heq
    exact absurd (List.cons.inj heq).1 hc
  · rfl

theorem quoted?_append (hne : name ≠ []) (hname : .char '"' ∉ name) (rest : Text) :
    quoted? (.char '"' :: (name ++ .char '"' :: rest)) = some (name, rest) := by
  have hspan : (name ++ .char '"' :: rest).span (fun c => decide (c ≠ .char '"')) =
      (name, .char '"' :: rest) := by
    refine span_append (forall_ne_of_notMem hname) ?_
    rintro _ ⟨⟩
    decide
  obtain ⟨c, name, rfl⟩ := List.exists_cons_of_ne_nil hne
  rw [quoted?, hspan]

/-- What is read in quotes is not empty, and the quotes stand around it. -/
theorem quoted?_eq_some (h : quoted? t = some (name, rest)) :
    t = .char '"' :: (name ++ .char '"' :: rest) ∧ name ≠ [] := by
  unfold quoted? at h
  split at h
  · rename_i u
    have hsplit := List.takeWhile_append_dropWhile (p := (· ≠ .char '"')) (l := u)
    rw [List.span_eq_takeWhile_dropWhile] at h
    split at h
    · contradiction
    · contradiction
    · rename_i c body d behind hspan
      obtain ⟨rfl, rfl⟩ := Prod.mk.inj (Option.some.inj h)
      obtain ⟨htake, hdrop⟩ := Prod.mk.inj hspan
      rw [htake, hdrop] at hsplit
      have hd : d = '"' := by
        have hhead := List.head?_dropWhile_not (fun x => decide (x ≠ .char '"')) u
        rw [hdrop] at hhead
        simpa using hhead
      rw [← hsplit, hd]
      exact ⟨rfl, List.cons_ne_nil _ _⟩
  · contradiction

end Lifeline.Text
