import Lifeline.Proofs.Json.Characters
import Lifeline.Proofs.Json.SurrogatePairs
import Lifeline.Proofs.Session

/-!
# Texts of what is read

The texts of a session that is read are texts of the fields, what other values show, and plain
names.  So a test that all texts of the fields pass is passed by all texts of the session, if it
lets characters through (`forall_mem_texts_of_ofFields`).
-/

namespace Lifeline

variable {p : Text → Bool} {fields : List (Text × Json)} {v : Json}

section

variable (hp : ∀ t : Text, t.isScalar = true → p t = true)
include hp

/-- A text shows itself, and any other value characters. -/
theorem Json.AllTexts.display (hv : Json.AllTexts p v) : p v.display = true := by
  cases hv with
  | str ht => exact ht
  | _ => exact hp _ (Json.isScalar_shown _)

/-! ## Parts of a session -/

theorem Theme.forall_mem_texts_ofFields (h : Json.FieldsPass p fields) :
    ∀ t ∈ (Theme.ofFields fields).texts, p t = true := by
  intro t ht
  obtain ⟨slot, -, rfl⟩ := List.mem_map.mp ht
  rw [Theme.ofFields, Theme.get_ofColours]
  split
  · rename_i v hlookup
    exact (h.lookupEntry hlookup).display hp
  · have hdefault : (Theme.default.get slot).isScalar = true := by
      cases slot <;> decide
    exact hp _ hdefault

theorem Annotation.forall_mem_texts_ofFields (h : Json.FieldsPass p fields) :
    ∀ t ∈ ( Annotation.ofFields fields).texts, p t = true := by
  simp only [ Annotation.texts, Annotation.ofFields, List.forall_mem_cons]
  refine ⟨?_, ?_, ?_, List.forall_mem_nil _⟩
  -- Each of the three is a text of the fields or empty.
  all_goals
    split
    · rename_i v hlookup
      exact (h.lookupEntry hlookup).display hp
    · exact hp _ rfl

namespace Session

theorem forall_mem_readTexts (h : Json.FieldsPass p fields) :
    ∀ e ∈ (readTexts fields).entries, p e.1 = true ∧ p e.2 = true := by
  rw [readTexts, TextMap.entries_mapValues, List.forall_mem_map]
  intro e he
  obtain ⟨hkey, hvalue⟩ := h e (mem_lastEntries he)
  exact ⟨hkey, hvalue.display hp⟩

omit hp in
theorem fieldsPass_of_allObjects? {entries : List (Text × List (Text × Json))}
    (h : Json.FieldsPass p fields) (hentries : allObjects? fields = some entries) :
    ∀ e ∈ entries, p e.1 = true ∧ Json.FieldsPass p e.2 := by
  induction fields generalizing entries with
  | nil =>
      rw [← Option.some.inj hentries]
      exact fun e he => absurd he List.not_mem_nil
  | cons f fields ih =>
      obtain ⟨k, v⟩ := f
      obtain ⟨⟨hkey, hvalue⟩, hfields⟩ := List.forall_mem_cons.mp h
      cases v with
      | obj inside =>
          obtain ⟨later, hlater, rfl⟩ := Option.map_eq_some_iff.mp hentries
          exact List.forall_mem_cons.mpr
            ⟨⟨hkey, Json.fieldsPass_of_allTexts hvalue⟩, ih hfields hlater⟩
      | _ => contradiction

theorem forall_mem_readAnnotations? {annotations : TextMap Annotation}
    (h : Json.FieldsPass p fields) (hread : readAnnotations? fields = some annotations) :
    ∀ e ∈ annotations.entries, p e.1 = true ∧ ∀ t ∈ e.2.texts, p t = true := by
  obtain ⟨entries, hentries, rfl⟩ := Option.map_eq_some_iff.mp hread
  rw [TextMap.entries_mapValues, List.forall_mem_map]
  intro e he
  obtain ⟨hkey, hinside⟩ := fieldsPass_of_allObjects? h hentries e (mem_lastEntries he)
  exact ⟨hkey, Annotation.forall_mem_texts_ofFields hp hinside⟩

omit hp in
theorem pass_of_readCode {code : Text} (h : Json.FieldsPass p fields)
    (hread : readCode fields = .ok code) : p code = true := by
  unfold readCode at hread
  split at hread
  · rename_i c rest hlookup
    rw [← Except.ok.inj hread]
    cases h.lookupEntry hlookup with
    | str ht => exact ht
  · contradiction

theorem pass_of_readMode {mode : Text} (hread : readMode fields = .ok mode) :
    p mode = true := by
  have hknown : ∀ mode, isKnownMode mode = true → mode.isScalar = true := by
    intro mode hmode
    rw [isKnownMode, Bool.or_eq_true, beq_iff_eq, beq_iff_eq] at hmode
    rcases hmode with rfl | rfl <;> rfl
  unfold readMode at hread
  split at hread
  · rw [← Except.ok.inj hread]
    exact hp _ rfl
  · split_ifs at hread with hmode
    rw [← Except.ok.inj hread]
    exact hp _ (hknown _ hmode)
  · contradiction

theorem forall_mem_texts_of_readTheme {theme : Theme} (h : Json.FieldsPass p fields)
    (hread : readTheme fields = .ok theme) : ∀ t ∈ theme.texts, p t = true := by
  have hdefault : ∀ t ∈ Theme.default.texts, p t = true := by
    have hscalar : ∀ t ∈ Theme.default.texts, t.isScalar = true := by decide
    exact fun t ht => hp t (hscalar t ht)
  unfold readTheme at hread
  split at hread
  · rw [← Except.ok.inj hread]
    exact hdefault
  · rw [← Except.ok.inj hread]
    exact hdefault
  · rename_i colours hlookup
    rw [← Except.ok.inj hread]
    exact Theme.forall_mem_texts_ofFields hp
      (Json.fieldsPass_of_allTexts (h.lookupEntry hlookup))
  · contradiction

theorem forall_mem_of_readTooltips {tooltips : TextMap Text} (h : Json.FieldsPass p fields)
    (hread : readTooltips fields = .ok tooltips) :
    ∀ e ∈ tooltips.entries, p e.1 = true ∧ p e.2 = true := by
  unfold readTooltips at hread
  split at hread
  · rename_i entries hentries
    rw [← Except.ok.inj hread]
    exact forall_mem_readTexts hp (Json.fieldsPass_of_fieldsOrVoid? (h.fieldOrNull _) hentries)
  · contradiction

theorem forall_mem_of_readParticipants {participants : TextMap Annotation}
    (h : Json.FieldsPass p fields) (hread : readParticipants fields = .ok participants) :
    ∀ e ∈ participants.entries, p e.1 = true ∧ ∀ t ∈ e.2.texts, p t = true := by
  unfold readParticipants at hread
  split at hread
  · contradiction
  rename_i entries hentries
  split at hread
  · rename_i annotations hannotations
    rw [← Except.ok.inj hread]
    exact forall_mem_readAnnotations? hp
      (Json.fieldsPass_of_fieldsOrVoid? (h.fieldOrNull _) hentries) hannotations
  · contradiction

/-! ## Sessions -/

/-- The texts of a session pass what all texts in the fields pass that it is read from. -/
theorem forall_mem_texts_of_ofFields {s : Session} (h : Json.FieldsPass p fields)
    (hofFields : ofFields fields = .ok s) : ∀ t ∈ s.texts, p t = true := by
  have hread := readFrom_of_ofFields hofFields
  simp only [texts, List.forall_mem_cons, List.forall_mem_append, List.forall_mem_flatMap,
    List.not_mem_nil, false_imp_iff, implies_true, and_true]
  exact ⟨pass_of_readCode h hread.code, pass_of_readMode hp hread.syntaxMode,
    ⟨forall_mem_texts_of_readTheme hp h hread.theme,
      forall_mem_of_readTooltips hp h hread.tooltips⟩,
    forall_mem_of_readParticipants hp h hread.participants⟩

end Session

end

end Lifeline
