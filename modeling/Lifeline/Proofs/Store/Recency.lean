import Lifeline.Proofs.Json.Order
import Lifeline.Proofs.Record.Fields
import Lifeline.Proofs.Store.History

/-!
# The store as a map in order of recency

A store that was empty at first holds what its history says (`Holds`): under each
identifier the record that its savings leave.  From this follows what is found
under an identifier.  When the clock only goes forward, the times of saving also
tell the identifiers apart, so the sorted list of diagrams is the list of live
identifiers, the last saved one first.
-/

namespace Lifeline.Store

variable {s : Store} {calls : List Call} {c : Call} {id : Text} {r : Record}

/-- Calls as they come in: records are read from fields, and the clock, which shows
no empty text, goes forward. -/
structure Orderly (calls : List Call) : Prop where
  records : ∀ now r, .put now r ∈ calls → ∃ today fields, Record.ofFields today fields = .ok r
  times : ∀ now ∈ calls.filterMap Call.clock?, now ≠ []
  forward : (calls.filterMap Call.clock?).Pairwise fun earlier later =>
    Json.textBefore earlier later = true

/-- A store holds what its history says. -/
def Holds (s : Store) (calls : List Call) : Prop :=
  ∀ id, s.diagrams.get? id = (keptRecord? (savings id calls)).map Record.toJson

/-! ## What the store holds -/

theorem Orderly.of_append (h : Orderly (calls ++ [c])) : Orderly calls where
  records now r hput := h.records now r (List.mem_append_left _ hput)
  times now hnow := h.times now (by
    rw [List.filterMap_append]
    exact List.mem_append_left _ hnow)
  forward := by
    have hforward := h.forward
    rw [List.filterMap_append, List.pairwise_append] at hforward
    exact hforward.1

theorem clock_mem_of_mem_savings {x : Saving} (hx : x ∈ savings id calls) :
    x.now ∈ calls.filterMap Call.clock? :=
  List.mem_filterMap.mpr ⟨_, put_mem_of_mem_savings hx, rfl⟩

theorem Saving.creation_ne_nil {x : Saving} (h : x.now ≠ []) : x.creation ≠ [] := by
  unfold Saving.creation
  split
  · exact h
  · rename_i hcreated
    exact fun hnil => hcreated (by rw [hnil]; rfl)

/-- The time of creation that a new record takes over is the one that the first
saving fixed. -/
theorem keptCreation?_of_holds (h : Holds s calls) (hcalls : Orderly calls) (id : Text) :
    keptCreation? s id = some ((savings id calls).head?.map fun first => .str first.creation) := by
  cases hsaved : savings id calls with
  | nil =>
      have hget : s.diagrams.get? id = none := by rw [h id, hsaved]; rfl
      rw [keptCreation?, hget]
      rfl
  | cons first rest =>
      -- The time that the first saving fixed is not empty, so it is found as a given field.
      obtain ⟨r, hkept⟩ : ∃ r, keptRecord? (first :: rest) = some r := ⟨_, rfl⟩
      have hcreated : r.createdAt = first.creation := by
        rw [← Option.some.inj hkept]
      have hfirst : first.creation ≠ [] := by
        have hmem : first ∈ savings id calls := by
          rw [hsaved]
          exact List.mem_cons_self
        exact Saving.creation_ne_nil (hcalls.times _ (clock_mem_of_mem_savings hmem))
      have hget : s.diagrams.get? id = some (.obj r.toFields) := by
        rw [h id, hsaved, hkept]
        rfl
      have hgiven : Json.givenField? r.toFields "createdAt".toText = some (.str r.createdAt) := by
        rw [Json.givenField?_str rfl, if_neg (hcreated ▸ hfirst)]
      rw [keptCreation?, hget, Option.getD_some, Json.fieldsOrVoid?_obj]
      simp only [hgiven, hcreated, List.head?_cons, Option.map_some]

/-- Saving a record writes the record that the savings leave from then on. -/
theorem diagrams_call_put (h : Holds s calls) (hcalls : Orderly calls) (now : Text) (r : Record) :
    ∃ kept, keptRecord? (savings (diagramId r.name) (calls ++ [.put now r])) = some kept ∧
      (s.call (.put now r)).diagrams = s.diagrams.insert (diagramId r.name) kept.toJson := by
  have hsavings : savings (diagramId r.name) (calls ++ [.put now r]) =
      savings (diagramId r.name) calls ++ [⟨now, r⟩] := by
    rw [savings_append, savingsAfter, if_pos rfl]
  have hcreation : creation now r ((savings (diagramId r.name) calls).head?.map
      fun first => .str first.creation) =
        .str ((savings (diagramId r.name) calls).headD ⟨now, r⟩).creation := by
    cases savings (diagramId r.name) calls with
    | nil => rfl
    | cons first rest => rfl
  rw [hsavings, keptRecord?_append]
  refine ⟨_, rfl, ?_⟩
  simp only [call, put?, keptCreation?_of_holds h hcalls, hcreation]
  rfl

theorem Holds.call (h : Holds s calls) (hcalls : Orderly calls) (c : Call) :
    Holds (s.call c) (calls ++ [c]) := by
  intro id
  -- A call says something new about the identifiers that it concerns only.
  by_cases hid : c.Concerns id
  · cases c with
    | put now r =>
        obtain ⟨kept, hkept, hdiagrams⟩ := diagrams_call_put h hcalls now r
        have hname : diagramId r.name = id := hid
        rw [hdiagrams, TextMap.get?_insert, if_pos hname, ← hname, hkept]
        rfl
    | remove other =>
        have hother : other = id := hid
        rw [savings_append, savingsAfter, if_pos hother, hother, get?_call_remove]
        rfl
    | clear =>
        rw [savings_append]
        rfl
    | save => exact hid.elim
  · rw [get?_call_of_not_concerns s hid, savings_of_not_concerns calls hid]
    exact h id

/-- A run from a store without diagrams ends with what its history says. -/
theorem holds_run (hempty : s.diagrams = TextMap.empty) (hcalls : Orderly calls) :
    Holds (s.run calls) calls := by
  induction calls using List.reverseRecOn with
  | nil =>
      intro id
      rw [run, List.foldl_nil, hempty]
      rfl
  | append_singleton calls c ih =>
      rw [run, List.foldl_append]
      exact (ih hcalls.of_append).call hcalls.of_append c

/-! ## What is found -/

theorem restorable_of_keptRecord? (hcalls : Orderly calls)
    (h : keptRecord? (savings id calls) = some r) : r.Restorable := by
  obtain ⟨first, last, -, hlast, rfl⟩ := exists_of_keptRecord? h
  obtain ⟨today, fields, hfields⟩ := hcalls.records _ _ (put_mem_of_mem_savings hlast)
  exact (Record.restorable_of_ofFields hfields).withTimes _ _

/-- What is found under an identifier is the record that its savings leave. -/
theorem get_of_holds (h : Holds s calls) (hcalls : Orderly calls) (today id : Text) :
    get today id s = (keptRecord? (savings id calls)).elim .missing .found := by
  rw [get, h id]
  cases hkept : keptRecord? (savings id calls) with
  | none => rfl
  | some r =>
      have hread := Record.ofFields_toFields (restorable_of_keptRecord? hcalls hkept) today
      simp only [Option.map_some, Record.toJson, hread, Option.elim_some]

/-! ## In what order -/

/-- The record under the first identifier was saved after the one under the
second. -/
def SavedAfter (calls : List Call) (newer older : Text) : Prop :=
  ∀ r r', keptRecord? (savings newer calls) = some r → keptRecord? (savings older calls) = some r' →
    Json.textBefore r'.updatedAt r.updatedAt = true

theorem updatedAt_mem_of_keptRecord? (h : keptRecord? (savings id calls) = some r) :
    r.updatedAt ∈ calls.filterMap Call.clock? := by
  obtain ⟨first, last, -, hlast, rfl⟩ := exists_of_keptRecord? h
  exact clock_mem_of_mem_savings hlast

/-- A call changes nothing about the order of identifiers that it does not
concern. -/
theorem pairwise_savedAfter_append {ids : List Text} (h : ids.Pairwise (SavedAfter calls))
    (hids : ∀ id ∈ ids, ¬ c.Concerns id) : ids.Pairwise (SavedAfter (calls ++ [c])) := by
  refine h.imp_of_mem fun ha hb hab => ?_
  unfold SavedAfter
  rw [savings_of_not_concerns calls (hids _ ha), savings_of_not_concerns calls (hids _ hb)]
  exact hab

/-- The live identifiers stand in the order in which they were last saved. -/
theorem pairwise_liveIds (hcalls : Orderly calls) :
    (liveIds calls).Pairwise (SavedAfter calls) := by
  induction calls using List.reverseRecOn with
  | nil => exact List.Pairwise.nil
  | append_singleton calls c ih =>
      have hearlier := ih hcalls.of_append
      rw [liveIds_append]
      cases c with
      | put now r =>
          have hother : ∀ id ∈ (liveIds calls).filter fun id => id ≠ diagramId r.name,
              ¬ (Call.put now r).Concerns id := by
            intro id hid hconcerns
            exact (by simpa using (List.mem_filter.mp hid).2 : id ≠ diagramId r.name) hconcerns.symm
          -- The new head was saved after all others, and these keep their order.
          refine List.pairwise_cons.mpr ⟨fun older holder => ?_, ?_⟩
          · intro kept old hkept hold
            rw [savings_of_not_concerns calls (hother older holder)] at hold
            rw [savings_append, savingsAfter, if_pos rfl, keptRecord?_append] at hkept
            have hforward := hcalls.forward
            rw [List.filterMap_append, List.pairwise_append] at hforward
            rw [← Option.some.inj hkept]
            exact hforward.2.2 _ (updatedAt_mem_of_keptRecord? hold) now (List.mem_singleton_self _)
          · exact pairwise_savedAfter_append (hearlier.filter _) hother
      | remove other =>
          refine pairwise_savedAfter_append (hearlier.filter _) fun id hid hconcerns => ?_
          exact (by simpa using (List.mem_filter.mp hid).2 : id ≠ other) hconcerns.symm
      | clear => exact List.Pairwise.nil
      | save => exact pairwise_savedAfter_append hearlier fun _ _ => id

/-- The records that are saved, each with its identifier, the last saved one
first. -/
def savedRecords (calls : List Call) : List (Text × Record) :=
  (liveIds calls).filterMap fun id => (keptRecord? (savings id calls)).map fun r => (id, r)

theorem mem_savedRecords_iff :
    (id, r) ∈ savedRecords calls ↔ keptRecord? (savings id calls) = some r := by
  unfold savedRecords
  rw [List.mem_filterMap]
  constructor
  · rintro ⟨live, -, hlive⟩
    obtain ⟨kept, hkept, heq⟩ := Option.map_eq_some_iff.mp hlive
    obtain ⟨rfl, rfl⟩ := Prod.mk.inj heq
    exact hkept
  · intro hkept
    refine ⟨id, mem_liveIds_iff.mpr fun hnil => ?_, by rw [hkept]; rfl⟩
    rw [hnil] at hkept
    contradiction

theorem keys_savedRecords (calls : List Call) :
    (savedRecords calls).map Prod.fst = liveIds calls := by
  have hall : ∀ id ∈ liveIds calls, ((keptRecord? (savings id calls)).map fun r => (id, r)).map
      Prod.fst = some id := by
    intro id hid
    cases hkept : keptRecord? (savings id calls) with
    | none => exact absurd (keptRecord?_eq_none_iff.mp hkept) (mem_liveIds_iff.mp hid)
    | some r => rfl
  rw [savedRecords, List.map_filterMap, List.filterMap_congr hall]
  exact List.filterMap_some

/-- The later a record was saved, the further in front it is listed. -/
theorem pairwise_savedRecords (hcalls : Orderly calls) :
    (savedRecords calls).Pairwise fun newer older =>
      Json.textBefore older.2.updatedAt newer.2.updatedAt = true := by
  have hkeys : ((savedRecords calls).map Prod.fst).Pairwise (SavedAfter calls) := by
    rw [keys_savedRecords]
    exact pairwise_liveIds hcalls
  refine (List.pairwise_map.mp hkeys).imp_of_mem fun ha hb hab => ?_
  exact hab _ _ (mem_savedRecords_iff.mp ha) (mem_savedRecords_iff.mp hb)

/-! ## The list of diagrams -/

/-- The summary of a record. -/
def Summary.ofRecord (id : Text) (r : Record) : Summary :=
  { key := .str r.updatedAt
    shown := .obj
      [("id".toText, .str id), ("name".toText, .str r.name),
        ("syntaxMode".toText, .str r.session.syntaxMode),
        ("createdAt".toText, .str r.createdAt), ("updatedAt".toText, .str r.updatedAt)] }

theorem Summary.of?_toJson (id : Text) (hupdated : r.updatedAt ≠ []) :
    Summary.of? (id, r.toJson) = some (Summary.ofRecord id r) := by
  have hgiven : (Json.str r.updatedAt).isVoid = false := by
    simpa [Json.isVoid] using hupdated
  have hfield : Json.fieldOrNull r.toFields "updatedAt".toText = .str r.updatedAt := rfl
  simp only [of?, Record.toJson, hfield, hgiven]
  rfl

theorem updatedAt_ne_nil {entry : Text × Record} (hcalls : Orderly calls)
    (h : entry ∈ savedRecords calls) : entry.2.updatedAt ≠ [] :=
  hcalls.times _ (updatedAt_mem_of_keptRecord? (mem_savedRecords_iff.mp h))

/-- The entries of the store are the saved records in some order. -/
theorem perm_entries_of_holds (h : Holds s calls) :
    ((savedRecords calls).map fun e => (e.1, e.2.toJson)).Perm s.diagrams.entries := by
  have hkeys : ((savedRecords calls).map fun e => (e.1, e.2.toJson)).map Prod.fst =
      liveIds calls := by
    rw [List.map_map]
    exact keys_savedRecords calls
  have hsaved : ((savedRecords calls).map fun e => (e.1, e.2.toJson)).Nodup := by
    apply List.Nodup.of_map Prod.fst
    rw [hkeys]
    exact nodup_liveIds calls
  -- Without repetitions it is enough to compare members.
  refine (List.perm_ext_iff_of_nodup hsaved (List.Nodup.of_map _ s.diagrams.nodup)).mpr ?_
  rintro ⟨id, v⟩
  rw [← TextMap.get?_eq_some_iff, h id, Option.map_eq_some_iff, List.mem_map]
  constructor
  · rintro ⟨⟨id', r⟩, hmem, heq⟩
    obtain ⟨rfl, rfl⟩ := Prod.mk.inj heq
    exact ⟨r, mem_savedRecords_iff.mp hmem, rfl⟩
  · rintro ⟨r, hkept, rfl⟩
    exact ⟨(id, r), mem_savedRecords_iff.mpr hkept, rfl⟩

/-- The list of diagrams has the saved records, the last saved one first. -/
theorem list?_of_holds (h : Holds s calls) (hcalls : Orderly calls) :
    list? s = some ((savedRecords calls).map fun e => (Summary.ofRecord e.1 e.2).shown) := by
  have hsummaries : ((savedRecords calls).map fun e => (e.1, e.2.toJson)).filterMap Summary.of? =
      (savedRecords calls).map fun e => Summary.ofRecord e.1 e.2 := by
    rw [List.filterMap_map, ← List.filterMap_eq_map]
    exact List.filterMap_congr fun e he => Summary.of?_toJson e.1 (updatedAt_ne_nil hcalls he)
  have hperm := (perm_entries_of_holds h).filterMap Summary.of?
  rw [hsummaries] at hperm
  have horder : Sorting.Orders (fun a b : Summary => Json.before? a.key b.key)
      (· ∈ s.diagrams.entries.filterMap Summary.of?) := by
    refine Json.orders_keys fun x hx => ?_
    obtain ⟨e, -, rfl⟩ := List.mem_map.mp (hperm.mem_iff.mpr hx)
    exact ⟨e.2.updatedAt, rfl⟩
  have hfalling : ((savedRecords calls).map fun e => Summary.ofRecord e.1 e.2).Pairwise
      fun a b => Json.before? b.key a.key = some true := by
    refine List.pairwise_map.mpr ((pairwise_savedRecords hcalls).imp fun hab => ?_)
    exact congrArg some hab
  rw [list?, Sorting.sortDown?_eq_of_falling horder hperm hfalling, Option.map_some, List.map_map]
  rfl

/-- What a store without diagrams holds after any run of calls is told by their
history.  It lists each live identifier once, the last saved one first.  Under an
identifier it gives the record that was saved last, with the time of that saving
and the time of creation that the first saving since the last removal fixed.  A
record can always be saved, and a call leaves what is under all identifiers but its
own. -/
theorem run_reads_history (hempty : s.diagrams = TextMap.empty) (hcalls : Orderly calls) :
    (liveIds calls).Nodup ∧ (∀ id, id ∈ liveIds calls ↔ savings id calls ≠ []) ∧
      (savedRecords calls).map Prod.fst = liveIds calls ∧
      (∀ id r, (id, r) ∈ savedRecords calls ↔ keptRecord? (savings id calls) = some r) ∧
      ((savedRecords calls).Pairwise fun newer older =>
        Json.textBefore older.2.updatedAt newer.2.updatedAt = true) ∧
      list? (s.run calls) =
        some ((savedRecords calls).map fun e => (Summary.ofRecord e.1 e.2).shown) ∧
      (∀ today id, get today id (s.run calls) =
        (keptRecord? (savings id calls)).elim .missing .found) ∧
      (∀ now r, ∃ saved, put? now r (s.run calls) = some saved) ∧
      ∀ c id, ¬ c.Concerns id →
        ((s.run calls).call c).diagrams.get? id = (s.run calls).diagrams.get? id := by
  have hholds := holds_run hempty hcalls
  refine ⟨nodup_liveIds calls, fun _ => mem_liveIds_iff, keys_savedRecords calls,
    fun _ _ => mem_savedRecords_iff, pairwise_savedRecords hcalls, list?_of_holds hholds hcalls,
    get_of_holds hholds hcalls, fun now r => ?_,
    fun _ _ hid => get?_call_of_not_concerns (s.run calls) hid⟩
  simp only [put?, keptCreation?_of_holds hholds hcalls]
  exact ⟨_, rfl⟩

/-- A record with a time of creation of its own. -/
def dated : Record :=
  ⟨Record.currentVersion, "A b!".toText, "t0".toText, [],
    Session.ofCode "A->>B: hi".toText mermaidMode⟩

/-- A record whose diagram has an empty title, so that it has no name. -/
def untitled : Record :=
  ⟨Record.currentVersion, [], [], [], Session.ofCode "title".toText mermaidMode⟩

/-- Calls that replace a record under another spelling of its name, and save one
again that was removed. -/
def draftCalls : List Call :=
  [.put "t1".toText dated, .put "t2".toText untitled,
    .put "t3".toText { dated with name := "a-B".toText, createdAt := "t9".toText },
    .remove "diagram".toText, .put "t4".toText untitled]

theorem restorable_dated : dated.Restorable :=
  ⟨⟨by decide, by decide⟩, fun hname => absurd hname (by decide)⟩

theorem restorable_untitled : untitled.Restorable :=
  ⟨⟨by decide, by decide⟩, fun _ _ => rfl⟩

theorem orderly_draftCalls : Orderly draftCalls where
  records now r hput := by
    have hrenamed : { dated with name := "a-B".toText, createdAt := "t9".toText }.Restorable :=
      ⟨⟨by decide, by decide⟩, fun hname => absurd hname (by decide)⟩
    have hr : r.Restorable := by
      simp only [draftCalls, List.mem_cons, Call.put.injEq, List.not_mem_nil, reduceCtorEq,
        or_false, false_or] at hput
      rcases hput with ⟨-, rfl⟩ | ⟨-, rfl⟩ | ⟨-, rfl⟩ | ⟨-, rfl⟩
      · exact restorable_dated
      · exact restorable_untitled
      · exact hrenamed
      · exact restorable_untitled
    exact ⟨[], r.toFields, Record.ofFields_toFields hr []⟩
  times := by decide
  forward := by decide

theorem run_reads_history_draftCalls :
    Orderly draftCalls ∧ liveIds draftCalls = ["diagram".toText, "a-b".toText] ∧
      list? (run ⟨TextMap.empty, 0, none⟩ draftCalls) =
        some [(Summary.ofRecord "diagram".toText
            { untitled with createdAt := "t4".toText, updatedAt := "t4".toText }).shown,
          (Summary.ofRecord "a-b".toText
            { dated with name := "a-B".toText, updatedAt := "t3".toText }).shown] ∧
      get "today".toText "a-b".toText (run ⟨TextMap.empty, 0, none⟩ draftCalls) =
        .found { dated with name := "a-B".toText, updatedAt := "t3".toText } := by
  obtain ⟨-, -, -, -, -, hlist, hget, -, -⟩ :=
    run_reads_history (s := ⟨TextMap.empty, 0, none⟩) rfl orderly_draftCalls
  refine ⟨orderly_draftCalls, by decide, ?_, ?_⟩
  · rw [hlist]
    rfl
  · rw [hget]
    rfl

end Lifeline.Store
