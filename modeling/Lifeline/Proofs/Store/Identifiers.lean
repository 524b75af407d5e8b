import Lifeline.Proofs.Record.Fields
import Lifeline.Proofs.Store.History
import Lifeline.Proofs.Text.Pieces

/-!
# Names that share an identifier

An identifier keeps the words of a name: its runs of ASCII letters and digits,
without regard to capitals.  Everything else about the name is lost, so names
with the same words have the same identifier, and all names without words have
the one of the word `diagram`.  Saving a record replaces what is saved under such
a name and nothing else.
-/

namespace Lifeline

variable {name other word : Text}

/-- The words of a name that its identifier keeps. -/
def nameWords (name : Text) : List Text :=
  match alphanumericRuns name with
  | [] => ["diagram".toText]
  | runs => runs.map fun run => run.map CodePoint.toLower

/-! ## Words -/

theorem mem_alphanumericRuns (h : word ∈ alphanumericRuns name) :
    word ≠ [] ∧ ∀ c ∈ word, c.isAlphanum = true := by
  obtain ⟨hpiece, hne⟩ := List.mem_filter.mp h
  refine ⟨by simpa using hne, fun c hc => ?_⟩
  simpa using Text.not_separator_of_mem_splitWhere hpiece hc

theorem nameWords_ne_nil (name : Text) : nameWords name ≠ [] := by
  unfold nameWords
  split
  · exact List.cons_ne_nil _ _
  · rename_i hruns
    exact fun hnil => hruns (List.map_eq_nil_iff.mp hnil)

/-- Words are not empty, and they are made of ASCII letters and digits. -/
theorem mem_nameWords (h : word ∈ nameWords name) :
    word ≠ [] ∧ ∀ c ∈ word, c.isAlphanum = true := by
  unfold nameWords at h
  split at h
  · rw [List.mem_singleton.mp h]
    exact ⟨by decide, List.all_eq_true.mp
      (by decide : "diagram".toText.all CodePoint.isAlphanum = true)⟩
  · obtain ⟨run, hrun, rfl⟩ := List.mem_map.mp h
    obtain ⟨hne, hall⟩ := mem_alphanumericRuns hrun
    refine ⟨fun hnil => hne (List.map_eq_nil_iff.mp hnil), fun c hc => ?_⟩
    obtain ⟨b, hb, rfl⟩ := List.mem_map.mp hc
    exact Text.isAlphanum_toLower (hall b hb)

/-! ## Identifiers -/

theorem diagramId_eq (name : Text) : diagramId name = Text.join ['-'] (nameWords name) := by
  have hhyphen : CodePoint.toLower '-' = '-' := by decide
  unfold diagramId nameWords
  cases alphanumericRuns name with
  | nil => rfl
  | cons run runs => exact Text.map_join CodePoint.toLower hhyphen

/-- The words of a name are read off its identifier. -/
theorem alphanumericRuns_diagramId (name : Text) :
    alphanumericRuns (diagramId name) = nameWords name := by
  have hcut : Text.splitWhere (fun c => !c.isAlphanum) (diagramId name) = nameWords name := by
    rw [diagramId_eq]
    refine Text.splitWhere_join (by decide) (nameWords_ne_nil name) fun word hword c hc => ?_
    simpa using (mem_nameWords hword).2 c hc
  rw [alphanumericRuns, hcut, List.filter_eq_self]
  intro word hword
  simpa using (mem_nameWords hword).1

/-- Two names have one identifier when they have the same words. -/
theorem diagramId_eq_iff : diagramId name = diagramId other ↔ nameWords name = nameWords other := by
  constructor
  · intro h
    rw [← alphanumericRuns_diagramId name, h, alphanumericRuns_diagramId]
  · intro h
    rw [diagramId_eq, h, ← diagramId_eq]

namespace Store

/-! ## Saving under a name -/

/-- Saving a record leaves what is found under every name with other words.  Under
a name with the same words it is the record that is found from then on, with the
time of saving. -/
theorem get_call_put {c : Record} {day : Text} {fields : List (Text × Json)}
    (hc : Record.ofFields day fields = .ok c) (s : Store) (now today name : Text) :
    (nameWords name ≠ nameWords c.name →
        get today (diagramId name) (s.call (.put now c)) = get today (diagramId name) s) ∧
      (nameWords name = nameWords c.name → ∀ next entry, put? now c s = some (next, entry) →
        ∃ createdAt, get today (diagramId name) next =
          .found { c with createdAt := createdAt, updatedAt := now }) := by
  constructor
  · intro hwords
    have hother : ¬ (Call.put now c).Concerns (diagramId name) :=
      fun hsame => hwords (diagramId_eq_iff.mp hsame).symm
    rw [get, get, get?_call_of_not_concerns s hother]
  · intro hwords next entry hput
    simp only [put?] at hput
    cases hkept : keptCreation? s (diagramId c.name) with
    | none =>
        rw [hkept] at hput
        contradiction
    | some kept =>
        rw [hkept] at hput
        obtain ⟨rfl, -⟩ := Prod.mk.inj (Option.some.inj hput)
        have hfound : (s.change (s.diagrams.insert (diagramId c.name) (.obj (c.fieldsWith
            (creation now c kept) (.str now))))).diagrams.get? (diagramId name) =
              some (.obj (c.fieldsWith (creation now c kept) (.str now))) :=
          (TextMap.get?_insert _ _ _ _).trans (if_pos (diagramId_eq_iff.mpr hwords.symm))
        -- What is found is what was saved, with the times that the store wrote into its fields.
        have hread := Record.ofFields_fieldsWith (Record.restorable_of_ofFields hc) today
          (creation now c kept) (.str now)
        exact ⟨(creation now c kept).display, by simp only [get, hfound, hread, Json.display_str]⟩

/-- A record with a name and a diagram, and nothing else. -/
def sketch (name code : String) : Record :=
  ⟨Record.currentVersion, name.toText, [], [], Session.ofCode code.toText mermaidMode⟩

/-- The store after a diagram was saved under `C++`, the first one of all. -/
def oneSketch : Store :=
  run ⟨TextMap.empty, 0, none⟩ [.put "t1".toText (sketch "C++" "A->>B: one")]

theorem ofFields_sketch {name code : String} (hname : name.toText ≠ []) (hcode : code.toText ≠ []) :
    Record.ofFields [] (sketch name code).toFields = .ok (sketch name code) :=
  Record.ofFields_toFields
    ⟨⟨hcode, (by decide : isKnownMode mermaidMode = true)⟩, fun hnil => absurd hnil hname⟩ []

theorem get_call_put_sketch :
    Record.ofFields [] (sketch "API v2" "X").toFields = .ok (sketch "API v2" "X") ∧
      nameWords "C++".toText ≠ nameWords "API v2".toText ∧
      get [] "c".toText (oneSketch.call (.put "t2".toText (sketch "API v2" "X"))) =
        .found { sketch "C++" "A->>B: one" with
          createdAt := "t1".toText, updatedAt := "t1".toText } ∧
      ∃ next entry createdAt,
        put? "t2".toText (sketch "API v2" "X") oneSketch = some (next, entry) ∧
          get [] (diagramId "api (V2)".toText) next =
            .found { sketch "API v2" "X" with
              createdAt := createdAt, updatedAt := "t2".toText } := by
  have hread : Record.ofFields [] (sketch "API v2" "X").toFields = .ok (sketch "API v2" "X") :=
    ofFields_sketch (by decide) (by decide)
  have hwords : nameWords "C++".toText ≠ nameWords "API v2".toText := by decide
  have hother := (get_call_put hread oneSketch "t2".toText [] "C++".toText).1 hwords
  obtain ⟨createdAt, hfound⟩ :=
    (get_call_put hread oneSketch "t2".toText [] "api (V2)".toText).2 (by decide) _ _ rfl
  exact ⟨hread, hwords, hother, _, _, createdAt, rfl, hfound⟩

/-- A diagram saved under `C++` is nowhere to be found after another one was saved
under `C#`. -/
theorem put_loses_other_name :
    Record.ofFields [] (sketch "C++" "A->>B: one").toFields = .ok (sketch "C++" "A->>B: one") ∧
      Record.ofFields [] (sketch "C#" "A->>B: two").toFields = .ok (sketch "C#" "A->>B: two") ∧
      (sketch "C++" "A->>B: one").name ≠ (sketch "C#" "A->>B: two").name ∧
      get [] "c".toText oneSketch =
        .found { sketch "C++" "A->>B: one" with
          createdAt := "t1".toText, updatedAt := "t1".toText } ∧
      ∀ today id r,
        get today id (oneSketch.call (.put "t2".toText (sketch "C#" "A->>B: two"))) = .found r →
          r.session.code ≠ "A->>B: one".toText := by
  refine ⟨ofFields_sketch (by decide) (by decide), ofFields_sketch (by decide) (by decide),
    by decide, rfl, fun today id r hget => ?_⟩
  have hlookup : (oneSketch.call (.put "t2".toText (sketch "C#" "A->>B: two"))).diagrams.get? id =
      if "c".toText = id then some (.obj ((sketch "C#" "A->>B: two").fieldsWith
        (.str "t1".toText) (.str "t2".toText))) else none := rfl
  -- Under any identifier there is the new diagram or none.
  by_cases hid : "c".toText = id
  · have hsketch : Record.ofFields [] (sketch "C#" "A->>B: two").toFields =
        .ok (sketch "C#" "A->>B: two") := ofFields_sketch (by decide) (by decide)
    have hread := Record.ofFields_fieldsWith (Record.restorable_of_ofFields hsketch)
      today (.str "t1".toText) (.str "t2".toText)
    rw [get, hlookup, if_pos hid] at hget
    simp only [hread, Lookup.found.injEq] at hget
    rw [← hget]
    decide
  · rw [get, hlookup, if_neg hid] at hget
    contradiction

end Store
end Lifeline
