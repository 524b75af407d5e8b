import Lifeline.Proofs.Mermaid.Structure
import Mathlib.Data.List.Nodup

/-!
# Outlines of texts put together

Each line of a diagram is read on its own, so the outline of two texts with a line
feed between them is made of their two outlines.  The messages of the second text are
counted on from those of the first, and its participants follow except for those that
the first one has already, with the label and kind that they have there.
-/

namespace Lifeline.Mermaid

variable {known found : List Participant} {p : Participant} {name : Text}

/-- The names of participants, in order. -/
def names (ps : List Participant) : List Text :=
  ps.map Participant.name

/-- A step that stands behind a number of others. -/
def Step.behind (count : Nat) (s : Step) : Step :=
  { s with index := count + s.index }

/-- An outline continued by another one: participants that are known are left out, and
the steps are counted on. -/
def Outline.append (o next : Outline) : Outline :=
  ⟨o.participants ++ next.participants.filter fun p => p.name ∉ names o.participants,
    o.steps ++ next.steps.map (Step.behind o.steps.length)⟩

/-- Every participant has a name of its own, and every step stands at its index. -/
structure Outline.Orderly (o : Outline) : Prop where
  name_ne_nil : ∀ p ∈ o.participants, p.name ≠ []
  nodup_names : (names o.participants).Nodup
  indices_eq : o.steps.map Step.index = List.range o.steps.length

/-! ## Adding a participant -/

theorem any_name_iff :
    (known.any fun q => q.name == p.name) = true ↔ p.name ∈ names known := by
  simp [names, List.any_eq_true, List.mem_map]

theorem addParticipant_of_known (h : p.name = [] ∨ p.name ∈ names known) :
    addParticipant known p = known := by
  unfold addParticipant
  rcases h with hempty | hmem
  · simp [hempty]
  · rw [any_name_iff.mpr hmem, Bool.or_true, if_pos rfl]

theorem addParticipant_of_new (hne : p.name ≠ []) (hnew : p.name ∉ names known) :
    addParticipant known p = known ++ [p] := by
  have hany : (known.any fun q => q.name == p.name) = false :=
    eq_false_of_ne_true fun h => hnew (any_name_iff.mp h)
  have hempty : p.name.isEmpty = false := by simpa using hne
  rw [addParticipant, hempty, hany, Bool.or_false, if_neg (by decide)]

theorem mem_names_append :
    name ∈ names (known ++ found) ↔ name ∈ names known ∨ name ∈ names found := by
  rw [names, List.map_append, List.mem_append]
  rfl

/-- Leaving out the participants with known names leaves all the other names. -/
theorem mem_names_filter :
    name ∈ names (found.filter fun q => q.name ∉ names known) ↔
      name ∈ names found ∧ name ∉ names known := by
  simp only [names, List.mem_map, List.mem_filter, decide_eq_true_eq]
  constructor
  · rintro ⟨q, ⟨hq, hnew⟩, rfl⟩
    exact ⟨⟨q, hq, rfl⟩, hnew⟩
  · rintro ⟨⟨q, hq, rfl⟩, hnew⟩
    exact ⟨q, ⟨hq, hnew⟩, rfl⟩

/-- Participants are added to known ones as they would be to none, less those that are
known. -/
theorem foldl_addParticipant (known ps : List Participant) :
    ps.foldl addParticipant known =
      known ++ (ps.foldl addParticipant []).filter fun p => p.name ∉ names known := by
  -- The last participant is the one to be placed, behind all that were found before it.
  induction ps using List.reverseRecOn with
  | nil => simp
  | append_singleton ps p ih =>
      rw [List.foldl_append, List.foldl_append, ih]
      generalize ps.foldl addParticipant [] = found
      show addParticipant (known ++ found.filter _) p =
        known ++ (addParticipant found p).filter fun p => p.name ∉ names known
      by_cases hskip : p.name = [] ∨ p.name ∈ names found
      · rw [addParticipant_of_known hskip, addParticipant_of_known]
        rw [mem_names_append, mem_names_filter]
        tauto
      · obtain ⟨hne, hfound⟩ := not_or.mp hskip
        rw [addParticipant_of_new hne hfound, List.filter_append]
        by_cases hknown : p.name ∈ names known
        · rw [addParticipant_of_known (Or.inr (mem_names_append.mpr (Or.inl hknown))),
            List.filter_singleton, decide_eq_false (not_not_intro hknown)]
          simp
        · rw [addParticipant_of_new hne, List.filter_singleton, decide_eq_true hknown]
          · simp
          · rw [mem_names_append, mem_names_filter]
            tauto

/-! ## Names without repetition -/

theorem name_ne_nil_addParticipant (h : ∀ q ∈ known, q.name ≠ []) :
    ∀ q ∈ addParticipant known p, q.name ≠ [] := by
  by_cases hskip : p.name = [] ∨ p.name ∈ names known
  · rwa [addParticipant_of_known hskip]
  · obtain ⟨hne, hnew⟩ := not_or.mp hskip
    rw [addParticipant_of_new hne hnew]
    intro q hq
    rcases List.mem_append.mp hq with hq | hq
    · exact h q hq
    · rwa [List.mem_singleton.mp hq]

theorem nodup_names_addParticipant (h : (names known).Nodup) :
    (names (addParticipant known p)).Nodup := by
  by_cases hskip : p.name = [] ∨ p.name ∈ names known
  · rwa [addParticipant_of_known hskip]
  · obtain ⟨hne, hnew⟩ := not_or.mp hskip
    rw [addParticipant_of_new hne hnew, names, List.map_append]
    exact List.nodup_append_comm.mp (List.nodup_cons.mpr ⟨hnew, h⟩)

/-- What adding one participant preserves is true of all that are found. -/
theorem foldl_addParticipant_induction {q : List Participant → Prop} (hempty : q [])
    (hadd : ∀ known p, q known → q (addParticipant known p)) (ps : List Participant) :
    q (ps.foldl addParticipant []) := by
  induction ps using List.reverseRecOn with
  | nil => exact hempty
  | append_singleton ps p ih =>
      rw [List.foldl_append]
      exact hadd _ p ih

/-! ## Counting steps -/

theorem numberedFrom_append (index : Nat) (ms ns : List Message) :
    numberedFrom index (ms ++ ns) =
      numberedFrom index ms ++ numberedFrom (index + ms.length) ns := by
  induction ms generalizing index with
  | nil => rfl
  | cons m ms ih =>
      rw [List.cons_append, numberedFrom, ih, numberedFrom, List.cons_append, List.length_cons,
        Nat.add_assoc, Nat.add_comm 1]

theorem numberedFrom_add (count index : Nat) (ms : List Message) :
    numberedFrom (count + index) ms = (numberedFrom index ms).map (Step.behind count) := by
  induction ms generalizing index with
  | nil => rfl
  | cons m ms ih => rw [numberedFrom, Nat.add_assoc, ih, numberedFrom, List.map_cons, Step.behind]

theorem indices_numberedFrom (index : Nat) (ms : List Message) :
    (numberedFrom index ms).map Step.index = List.range' index ms.length := by
  induction ms generalizing index with
  | nil => rfl
  | cons m ms ih => rw [numberedFrom, List.map_cons, ih, List.length_cons, List.range'_succ]

/-! ## Outlines -/

theorem outlineOfLines_append (ls ks : List Text) :
    outlineOfLines (ls ++ ks) = (outlineOfLines ls).append (outlineOfLines ks) := by
  refine congrArg₂ Outline.mk ?_ ?_
  · rw [List.flatMap_append, List.foldl_append]
    exact foldl_addParticipant _ _
  · have hlength : (outlineOfLines ls).steps.length =
        (ls.filterMap fun l => (kindOf l).message?).length := length_numberedFrom 0 _
    rw [List.filterMap_append, numberedFrom_append, hlength, Nat.add_comm 0, numberedFrom_add]
    rfl

theorem orderly_outline (t : Text) : (outline t).Orderly where
  name_ne_nil :=
    foldl_addParticipant_induction (q := fun known => ∀ p ∈ known, p.name ≠ [])
      (fun _ h => absurd h List.not_mem_nil) (fun _ _ h => name_ne_nil_addParticipant h) _
  nodup_names :=
    foldl_addParticipant_induction (q := fun known => (names known).Nodup)
      List.nodup_nil (fun _ _ h => nodup_names_addParticipant h) _
  indices_eq := by
    rw [outline, indices_numberedFrom, length_numberedFrom, List.range_eq_range']

/-- The outline of two texts with a line feed between them is the first one's outline
continued by the second one's.  In every outline the names are distinct and not empty,
and the steps are counted from zero. -/
theorem outline_append_newline :
    (∀ s t : Text, outline (s ++ .char '\n' :: t) = (outline s).append (outline t)) ∧
      ∀ t : Text, (outline t).Orderly := by
  refine ⟨fun s t => ?_, orderly_outline⟩
  rw [outline_eq, Text.lines_append_cons, outlineOfLines_append, ← outline_eq, ← outline_eq]

example : outline "A->>B: x\nactor B\nB-->>C: y".toText =
    (⟨[⟨['A'], none, false⟩, ⟨['B'], none, false⟩], [⟨0, ⟨['A'], ['B'], ['x'], false⟩⟩]⟩ :
        Outline).append
      ⟨[⟨['B'], none, true⟩, ⟨['C'], none, false⟩], [⟨0, ⟨['B'], ['C'], ['y'], true⟩⟩]⟩ := by
  decide

end Lifeline.Mermaid
