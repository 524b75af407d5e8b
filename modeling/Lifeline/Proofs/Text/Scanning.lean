import Lifeline.Text.Search
import Mathlib.Data.List.Flatten

/-!
# What a scan finds

A scan continues behind what it found, so what stands in front of a place has no part in
what is found there.  Where each stretch of a text is read in one way whatever follows it,
the text is read stretch by stretch.
-/

namespace Lifeline.Text

variable {α β : Type} {recognise : Text → Option (Nat × β)} {found : Text → Option Text}
  {t u before rest behind : Text} {ps qs : List (Piece β)} {b : β}

/-- An end mark is found where it stands when it is found at no character in front of it. -/
theorem cutWhere?_append (hbefore : ∀ c ∈ before, ∀ u, found (c :: u) = none)
    (hfound : found rest = some behind) :
    cutWhere? found (before ++ rest) = some (before, behind) := by
  induction before with
  | nil => cases rest <;> simp [cutWhere?, hfound]
  | cons c before ih =>
      obtain ⟨hc, hbefore⟩ := List.forall_mem_cons.mp hbefore
      rw [List.cons_append, cutWhere?, hc, ih hbefore]
      rfl

/-! ## Pieces -/

/-- What is found is passed over as a whole. -/
theorem piecesFrom_append (recognise : Text → Option (Nat × β)) (passed rest : Text) :
    piecesFrom recognise passed.length (passed ++ rest) = piecesFrom recognise 0 rest := by
  induction passed with
  | nil => rfl
  | cons c passed ih => exact ih

/-- A text is read as the given pieces, whatever follows it. -/
def ReadsAs (recognise : Text → Option (Nat × β)) (t : Text) (ps : List (Piece β)) : Prop :=
  ∀ rest, pieces recognise (t ++ rest) = ps ++ pieces recognise rest

theorem ReadsAs.pieces_eq (h : ReadsAs recognise t ps) : pieces recognise t = ps := by
  have hread := h []
  rwa [List.append_nil, show pieces recognise [] = [] from rfl, List.append_nil] at hread

theorem ReadsAs.append (ht : ReadsAs recognise t ps) (hu : ReadsAs recognise u qs) :
    ReadsAs recognise (t ++ u) (ps ++ qs) := by
  intro rest
  rw [List.append_assoc, ht, hu, List.append_assoc]

theorem ReadsAs.flatMap {xs : List α} {f : α → Text} {g : α → List (Piece β)}
    (h : ∀ x ∈ xs, ReadsAs recognise (f x) (g x)) :
    ReadsAs recognise (xs.flatMap f) (xs.flatMap g) := by
  induction xs with
  | nil => exact fun rest => rfl
  | cons x xs ih =>
      obtain ⟨hx, hxs⟩ := List.forall_mem_cons.mp h
      rw [List.flatMap_cons, List.flatMap_cons]
      exact hx.append (ih hxs)

/-- Where nothing is recognised there are ordinary characters. -/
theorem readsAs_plain (h : ∀ c ∈ t, ∀ u, recognise (c :: u) = none) :
    ReadsAs recognise t (t.map Piece.plain) := by
  intro rest
  induction t with
  | nil => rfl
  | cons c t ih =>
      obtain ⟨hc, ht⟩ := List.forall_mem_cons.mp h
      rw [List.cons_append, pieces, piecesFrom, hc]
      exact congrArg _ (ih ht)

/-- What is recognised with its own length is one piece. -/
theorem readsAs_found (hne : t ≠ []) (h : ∀ rest, recognise (t ++ rest) = some (t.length, b)) :
    ReadsAs recognise t [.found b] := by
  intro rest
  obtain ⟨c, t, rfl⟩ := List.exists_cons_of_ne_nil hne
  have hhere := h rest
  have hpassed := piecesFrom_append recognise t rest
  rw [List.cons_append] at hhere ⊢
  rw [pieces, piecesFrom, hhere]
  exact congrArg _ hpassed

/-! ## Ordinary characters -/

theorem flatMap_text_plain (render : β → Text) (t : Text) :
    (t.map Piece.plain).flatMap (Piece.text render) = t := by
  rw [List.flatMap_map]
  exact List.flatMap_singleton' t

theorem filterMap_found?_plain (t : Text) :
    (t.map (Piece.plain (β := β))).filterMap Piece.found? = [] := by
  rw [List.filterMap_map]
  exact List.filterMap_eq_nil_iff.mpr fun _ _ => rfl

end Lifeline.Text
