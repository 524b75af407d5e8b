import Lifeline.Proofs.Record

/-!
# Records read back from their own fields

A record that was read once is read again from the fields that are written for
it, on any day.  This needs a word about its name: a record without a name is
named after its diagram, and that can be the empty text, which counts as no name
when it is read again.  It stays empty, because only the day could change it and
a day is never an empty name.
-/

namespace Lifeline

/-! ## Values shown as texts -/

namespace Json

theorem displayReal_ne_nil (x : Binary64) : displayReal x ≠ [] := by
  cases x with
  | finite negative rank =>
      obtain ⟨c, t, hcons, -⟩ := exists_writeReal_eq_cons (.finite negative rank)
      unfold writeReal at hcons
      unfold displayReal
      intro hnil
      exact List.cons_ne_nil c t (hcons.symm.trans hnil)
  | infinite negative => cases negative <;> decide
  | notANumber => decide

theorem shown_ne_nil (v : Json) : shown v ≠ [] := by
  cases v with
  | null => decide
  | bool b => cases b <;> decide
  | int n =>
      obtain ⟨c, t, hcons, -⟩ := exists_ofInt_eq_cons n
      rw [shown, hcons]
      exact List.cons_ne_nil c t
  | real x =>
      rw [shown]
      exact displayReal_ne_nil x
  | str t =>
      rw [shown, Text.quoted]
      exact List.cons_ne_nil _ _
  | arr items =>
      rw [shown]
      exact List.cons_ne_nil _ _
  | obj fields =>
      rw [shown]
      exact List.cons_ne_nil _ _

theorem isVoid_of_givenField? {fields : List (Text × Json)} {key : Text} {v : Json}
    (h : givenField? fields key = some v) : v.isVoid = false := by
  unfold givenField? at h
  split at h
  · split at h
    · contradiction
    · rename_i hvoid
      rw [← Option.some.inj h]
      exact Bool.eq_false_of_not_eq_true hvoid
  · contradiction

theorem givenField?_str {fields : List (Text × Json)} {key t : Text}
    (h : lookupEntry key fields = some (.str t)) :
    givenField? fields key = if t = [] then none else some (.str t) := by
  rw [givenField?, h]
  simp [isVoid]

/-- A value that is not void does not show as the empty text. -/
theorem display_ne_nil {v : Json} (h : v.isVoid = false) : v.display ≠ [] := by
  cases v with
  | str t =>
      intro hnil
      rw [display_str] at hnil
      rw [hnil] at h
      contradiction
  | _ => exact shown_ne_nil _

end Json

namespace Record

variable {r : Record} {today : Text} {fields : List (Text × Json)}

/-! ## Names -/

/-- A name that is empty comes from the diagram, so it is empty on any day. -/
theorem nameOf_eq_nil {code : Text} (h : nameOf today code = []) (day : Text) :
    nameOf day code = [] := by
  unfold nameOf at h ⊢
  cases hline : (Text.lines code).findSome? fun line => lineName? (Text.strip line) with
  | none =>
      rw [hline] at h
      exact absurd h (List.cons_ne_nil _ _)
  | some name =>
      rw [hline] at h
      exact h

/-- A record that is read back from its own fields: its session can be exported,
and when it has no name then its diagram gives it none. -/
structure Restorable (r : Record) : Prop where
  exportable : r.session.Exportable
  nameless : r.name = [] → ∀ day, nameOf day r.session.code = []

theorem restorable_of_ofFields (h : ofFields today fields = .ok r) : r.Restorable := by
  unfold ofFields at h
  cases hsession : Session.ofFields fields with
  | error e =>
      rw [hsession] at h
      contradiction
  | ok session =>
      rw [hsession] at h
      rw [← Except.ok.inj h]
      refine ⟨Session.exportable_of_ofFields hsession, fun hname day => ?_⟩
      simp only [ofFieldsWith] at hname
      split at hname
      · rename_i v hgiven
        exact absurd hname (Json.display_ne_nil (Json.isVoid_of_givenField? hgiven))
      · exact nameOf_eq_nil hname day

/-- A record keeps what makes it readable when its times change. -/
theorem Restorable.withTimes (h : r.Restorable) (createdAt updatedAt : Text) :
    { r with createdAt := createdAt, updatedAt := updatedAt }.Restorable :=
  ⟨h.exportable, h.nameless⟩

/-! ## Reading back -/

/-- A record is read from the fields written for it, and its times are what the
values in their place show. -/
theorem ofFields_fieldsWith (h : r.Restorable) (today : Text) (createdAt updatedAt : Json) :
    ofFields today (r.fieldsWith createdAt updatedAt) =
      .ok { r with createdAt := createdAt.display, updatedAt := updatedAt.display } := by
  have hsession : Session.ofFields (r.fieldsWith createdAt updatedAt) = .ok r.session :=
    Session.ofFields_of_heldBy (r.heldBy_fieldsWith _ _) h.exportable
  have hgiven : Json.givenField? (r.fieldsWith createdAt updatedAt) "name".toText =
      if r.name = [] then none else some (.str r.name) :=
    Json.givenField?_str rfl
  have hversion : textField (r.fieldsWith createdAt updatedAt) "version".toText currentVersion =
      r.version := rfl
  have hcreated : textField (r.fieldsWith createdAt updatedAt) "createdAt".toText [] =
      createdAt.display := rfl
  have hupdated : textField (r.fieldsWith createdAt updatedAt) "updatedAt".toText [] =
      updatedAt.display := rfl
  simp only [ofFields, hsession, Except.map, ofFieldsWith, hgiven, hversion, hcreated, hupdated]
  by_cases hname : r.name = []
  · simp only [hname, if_true, h.nameless hname today]
  · simp only [hname, if_false, Json.display_str]

theorem ofFields_toFields (h : r.Restorable) (today : Text) : ofFields today r.toFields = .ok r :=
  ofFields_fieldsWith h today (.str r.createdAt) (.str r.updatedAt)

end Record
end Lifeline
