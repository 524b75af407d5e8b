import Lifeline.Proofs.Store.Runs
import Lifeline.Proofs.TextMap
import Mathlib.Data.List.Induction
import Mathlib.Data.List.Nodup

/-!
# What was saved under an identifier

The history of a store is the list of the calls that were made.  For each
identifier it has the savings since the identifier was last removed, and of the
identifiers that have some it makes a list, the last saved one first.  Neither
looks at a store.  A call leaves alone what is under the identifiers that it does
not concern, in the history as in a store.
-/

namespace Lifeline.Store

variable {s : Store} {calls : List Call} {c : Call} {id other : Text}

/-- What the clock shows when a record is saved. -/
def Call.clock? : Call → Option Text
  | .put now _ => some now
  | _ => none

/-- A call concerns an identifier: it saves or removes what is under it. -/
def Call.Concerns (id : Text) : Call → Prop
  | .put _ r => diagramId r.name = id
  | .remove other => other = id
  | .clear => True
  | .save => False

/-- A record that was saved, and what the clock showed. -/
structure Saving where
  now : Text
  record : Record

/-- The time of creation that a first saving fixes: the one of its record, if it
has one. -/
def Saving.creation (x : Saving) : Text :=
  if x.record.createdAt.isEmpty then x.now else x.record.createdAt

/-- The savings under an identifier after one more call. -/
def savingsAfter (id : Text) (savings : List Saving) : Call → List Saving
  | .put now r => if diagramId r.name = id then savings ++ [⟨now, r⟩] else savings
  | .remove other => if other = id then [] else savings
  | .clear => []
  | .save => savings

/-- The savings under an identifier since it was last removed, in order. -/
def savings (id : Text) (calls : List Call) : List Saving :=
  calls.foldl (savingsAfter id) []

/-- The identifiers with savings after one more call. -/
def liveAfter (live : List Text) : Call → List Text
  | .put _ r => diagramId r.name :: live.filter fun id => id ≠ diagramId r.name
  | .remove other => live.filter fun id => id ≠ other
  | .clear => []
  | .save => live

/-- The identifiers that were saved since they were last removed, the last saved
one first. -/
def liveIds (calls : List Call) : List Text :=
  calls.foldl liveAfter []

/-- The record that savings leave: the last one, with the time when it was saved
and the time of creation that the first one fixed. -/
def keptRecord? : List Saving → Option Record
  | [] => none
  | first :: rest =>
      let last := rest.getLastD first
      some { last.record with createdAt := first.creation, updatedAt := last.now }

/-! ## Calls that do not concern an identifier -/

/-- A call leaves what is under every identifier that it does not concern. -/
theorem get?_call_of_not_concerns (s : Store) (h : ¬ c.Concerns id) :
    (s.call c).diagrams.get? id = s.diagrams.get? id := by
  rcases call_cases s c with hsame | hsave | ⟨now, r, kept, rfl, -, hput⟩ | ⟨other, rfl, hremove⟩ |
    ⟨rfl, -⟩
  · rw [hsame]
  · rw [hsave]
    rfl
  · rw [hput]
    exact (TextMap.get?_insert _ _ _ _).trans (if_neg h)
  · rw [hremove]
    exact (TextMap.get?_erase _ _ _).trans (if_neg h)
  · exact absurd trivial h

theorem get?_call_remove (s : Store) (id : Text) :
    (s.call (.remove id)).diagrams.get? id = none := by
  rw [call, remove]
  split
  · exact (TextMap.get?_erase _ _ _).trans (if_pos rfl)
  · rename_i hmissing
    simpa using hmissing

theorem savings_append (id : Text) (calls : List Call) (c : Call) :
    savings id (calls ++ [c]) = savingsAfter id (savings id calls) c := by
  rw [savings, List.foldl_append]
  rfl

theorem savings_of_not_concerns (calls : List Call) (h : ¬ c.Concerns id) :
    savings id (calls ++ [c]) = savings id calls := by
  rw [savings_append]
  cases c with
  | put now r => exact if_neg h
  | remove other => exact if_neg h
  | clear => exact absurd trivial h
  | save => rfl

/-- Every saving was made by a call. -/
theorem put_mem_of_mem_savings {x : Saving} (h : x ∈ savings id calls) :
    Call.put x.now x.record ∈ calls := by
  -- The calls are taken from the end, where the savings grow.
  induction calls using List.reverseRecOn with
  | nil => exact absurd h List.not_mem_nil
  | append_singleton calls c ih =>
      rw [savings_append] at h
      have hearlier : x ∈ savings id calls → Call.put x.now x.record ∈ calls ++ [c] :=
        fun hx => List.mem_append_left _ (ih hx)
      cases c with
      | put now r =>
          rw [savingsAfter] at h
          split at h
          · rcases List.mem_append.mp h with hx | hx
            · exact hearlier hx
            · rw [List.mem_singleton.mp hx]
              exact List.mem_append_right _ (List.mem_singleton_self _)
          · exact hearlier h
      | remove other =>
          rw [savingsAfter] at h
          split at h
          · exact absurd h List.not_mem_nil
          · exact hearlier h
      | clear => exact absurd h List.not_mem_nil
      | save => exact hearlier h

/-! ## Identifiers with savings -/

theorem liveIds_append (calls : List Call) (c : Call) :
    liveIds (calls ++ [c]) = liveAfter (liveIds calls) c := by
  rw [liveIds, List.foldl_append]
  rfl

/-- No identifier is listed twice. -/
theorem nodup_liveIds (calls : List Call) : (liveIds calls).Nodup := by
  induction calls using List.reverseRecOn with
  | nil => exact List.nodup_nil
  | append_singleton calls c ih =>
      rw [liveIds_append]
      cases c with
      | put now r => exact List.nodup_cons.mpr ⟨by simp, ih.filter _⟩
      | remove other => exact ih.filter _
      | clear => exact List.nodup_nil
      | save => exact ih

/-- The identifiers that are listed are those with savings. -/
theorem mem_liveIds_iff : id ∈ liveIds calls ↔ savings id calls ≠ [] := by
  induction calls using List.reverseRecOn with
  | nil => simp [liveIds, savings]
  | append_singleton calls c ih =>
      rw [liveIds_append, savings_append]
      cases c with
      | put now r =>
          by_cases hid : diagramId r.name = id
          · simp [liveAfter, savingsAfter, hid]
          · simp [liveAfter, savingsAfter, hid, Ne.symm hid, ih]
      | remove other =>
          by_cases hid : other = id
          · simp [liveAfter, savingsAfter, hid]
          · simp [liveAfter, savingsAfter, hid, Ne.symm hid, ih]
      | clear => simp [liveAfter, savingsAfter]
      | save => exact ih

/-! ## The record that savings leave -/

theorem keptRecord?_eq_none_iff {saved : List Saving} : keptRecord? saved = none ↔ saved = [] := by
  cases saved with
  | nil => simp [keptRecord?]
  | cons first rest => simp [keptRecord?]

theorem keptRecord?_append (earlier : List Saving) (x : Saving) :
    keptRecord? (earlier ++ [x]) =
      some { x.record with createdAt := (earlier.headD x).creation, updatedAt := x.now } := by
  cases earlier with
  | nil => rfl
  | cons first rest => simp [keptRecord?]

/-- The record that savings leave is put together from the first and the last of
them. -/
theorem exists_of_keptRecord? {saved : List Saving} {r : Record} (h : keptRecord? saved = some r) :
    ∃ first last, saved.head? = some first ∧ last ∈ saved ∧
      r = { last.record with createdAt := first.creation, updatedAt := last.now } := by
  cases saved with
  | nil => contradiction
  | cons first rest =>
      exact ⟨first, rest.getLastD first, rfl, List.getLastD_mem_cons, (Option.some.inj h).symm⟩

end Lifeline.Store
