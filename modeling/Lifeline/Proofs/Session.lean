import Lifeline.Proofs.Json.RoundTrip
import Lifeline.Session

/-!
# Reading the parts of a session

A theme, tooltips and annotations are read back from the objects that are
written for them.  Of a theme only the colours that differ from the default
ones need to be written.  A test that all texts of a session pass is passed by
all texts of these objects, if it lets plain names through.
-/

namespace Lifeline

variable {α : Type} {key : Text} {front behind : List (Text × α)} {p : Text → Bool}

/-! ## Texts -/

/-- The colours of a theme. -/
def Theme.texts (theme : Theme) : List Text :=
  Slot.all.map theme.get

/-- The texts of an annotation. -/
def Annotation.texts (a : Annotation) : List Text :=
  [a.description, a.role, a.notes]

/-- Every text that a session holds. -/
def Session.texts (s : Session) : List Text :=
  s.code :: s.syntaxMode :: (s.theme.texts ++ s.tooltips.entries.flatMap (fun e => [e.1, e.2]) ++
    s.participants.entries.flatMap fun e => e.1 :: e.2.texts)

/-- No surrogate stands in a text of the session. -/
def Session.IsScalar (s : Session) : Prop :=
  ∀ t ∈ s.texts, t.isScalar = true

instance (s : Session) : Decidable s.IsScalar :=
  inferInstanceAs (Decidable (∀ t ∈ s.texts, t.isScalar = true))

/-- No text of the session splits a surrogate pair. -/
def Session.IsUnsplit (s : Session) : Prop :=
  ∀ t ∈ s.texts, Json.isUnsplit t = true

instance (s : Session) : Decidable s.IsUnsplit :=
  inferInstanceAs (Decidable (∀ t ∈ s.texts, Json.isUnsplit t = true))

theorem lookupEntry_append :
    lookupEntry key (front ++ behind) = (lookupEntry key front).or (lookupEntry key behind) := by
  induction front with
  | nil => rfl
  | cons entry front ih =>
      obtain ⟨k, v⟩ := entry
      by_cases hk : k = key
      · simp [lookupEntry, hk]
      · simp [lookupEntry, hk, ih]

@[simp] theorem Json.fieldsOrVoid?_obj (fields : List (Text × Json)) :
    (Json.obj fields).fieldsOrVoid? = some fields := by
  unfold Json.fieldsOrVoid? Json.isVoid
  cases fields with
  | nil => rfl
  | cons f fields => rfl

/-! ## Themes -/

namespace Theme

theorem name_injective : Function.Injective Slot.name := by
  have hfind : ∀ slot, Slot.all.find? (fun s => s.name == slot.name) = some slot := by
    intro slot
    cases slot <;> rfl
  intro a b hab
  have hboth : some a = some b := by rw [← hfind a, hab, hfind b]
  exact Option.some.inj hboth

theorem mem_all (slot : Slot) : slot ∈ Slot.all := by
  cases slot <;> decide

/-- The keys of the overrides are the names of places, each taken once. -/
theorem nodup_keys_overrides (theme : Theme) : (theme.overrides.map Prod.fst).Nodup := by
  have hsub : (theme.overrides.map Prod.fst).Sublist (Slot.all.map Slot.name) := by
    unfold overrides
    induction Slot.all with
    | nil => simp
    | cons slot slots ih =>
        by_cases hslot : theme.get slot = default.get slot
        · simpa [hslot] using ih.cons slot.name
        · simpa [hslot] using ih.cons_cons slot.name
  have hnames : (Slot.all.map Slot.name).Nodup := by decide
  exact hsub.nodup hnames

/-- The lookup of a colour among the overrides at some of the places. -/
theorem lookupEntry_filterMap (theme : Theme) (slot : Slot) (slots : List Slot) :
    lookupEntry slot.name ((slots.filterMap fun s =>
        if theme.get s = default.get s then none else some (s.name, theme.get s)).map
          fun e => (e.1, Json.str e.2)) =
      if slot ∈ slots ∧ theme.get slot ≠ default.get slot then some (.str (theme.get slot))
      else none := by
  induction slots with
  | nil => simp [lookupEntry]
  | cons s slots ih =>
      by_cases hs : s = slot
      · -- A default colour is looked up in vain here, and among the rest as well.
        subst hs
        by_cases hcolour : theme.get s = default.get s
        · simp only [hcolour] at ih
          simp [hcolour, ih]
        · simp [hcolour, lookupEntry]
      · have hname : s.name ≠ slot.name := fun h => hs (name_injective h)
        by_cases hcolour : theme.get s = default.get s
        · simp [hcolour, ih, Ne.symm hs]
        · simp [hcolour, lookupEntry, hname, ih, Ne.symm hs]

/-- The colour of a place is found among the overrides unless it is the default
one. -/
theorem lookupEntry_overrides (theme : Theme) (slot : Slot) :
    lookupEntry slot.name (theme.overrides.map fun e => (e.1, Json.str e.2)) =
      if theme.get slot ≠ default.get slot then some (.str (theme.get slot)) else none := by
  unfold overrides
  rw [lookupEntry_filterMap]
  simp [mem_all slot]

/-- A theme is read back from its overrides. -/
theorem ofFields_overrides (theme : Theme) :
    ofFields (theme.overrides.map fun e => (e.1, .str e.2)) = theme := by
  show ofColours _ = ofColours theme.get
  congr
  funext slot
  rw [lookupEntry_overrides]
  by_cases hslot : theme.get slot = default.get slot
  · simp [hslot]
  · simp [hslot]

theorem overrides_eq_nil {theme : Theme} (h : theme.isDefault = true) : theme.overrides = [] := by
  obtain rfl : theme = default := by simpa [isDefault] using h
  decide

theorem get_mem_texts (theme : Theme) (slot : Slot) : theme.get slot ∈ theme.texts :=
  List.mem_map_of_mem (mem_all slot)

/-- The name of a place is plain text. -/
theorem isScalar_name (slot : Slot) : slot.name.isScalar = true := by
  cases slot <;> decide

theorem readable_toJson {room : Nat} (theme : Theme) : Json.Readable (room + 1) theme.toJson := by
  have hnames : (Slot.all.map Slot.name).Nodup := by decide
  refine .obj ?_ ?_
  · simpa [List.map_map, Function.comp_def] using hnames
  · intro f hf
    obtain ⟨slot, -, rfl⟩ := List.mem_map.mp hf
    exact .str (theme.get slot)

theorem allTexts_toJson {theme : Theme} (hp : ∀ t : Text, t.isScalar = true → p t = true)
    (htexts : ∀ t ∈ theme.texts, p t = true) : Json.AllTexts p theme.toJson := by
  refine .obj ?_ ?_
  · intro f hf
    obtain ⟨slot, -, rfl⟩ := List.mem_map.mp hf
    exact hp slot.name (isScalar_name slot)
  · intro f hf
    obtain ⟨slot, -, rfl⟩ := List.mem_map.mp hf
    exact .str (htexts _ (theme.get_mem_texts slot))

/-- A theme is read back from all its colours. -/
theorem ofFields_colours (theme : Theme) :
    ofFields (Slot.all.map fun slot => (slot.name, .str (theme.get slot))) = theme := by
  show ofColours _ = ofColours theme.get
  congr
  funext slot
  cases slot <;> rfl

/-- An override names a place and gives it the colour that the theme has there. -/
theorem exists_slot_of_mem_overrides {theme : Theme} {e : Text × Text}
    (he : e ∈ theme.overrides) : ∃ slot, e = (slot.name, theme.get slot) := by
  obtain ⟨slot, -, hslot⟩ := List.mem_filterMap.mp he
  split at hslot
  · contradiction
  · exact ⟨slot, (Option.some.inj hslot).symm⟩

theorem readable_overridesJson {room : Nat} (theme : Theme) :
    Json.Readable (room + 1) theme.overridesJson := by
  refine .obj ?_ ?_
  · simpa [List.map_map, Function.comp_def] using theme.nodup_keys_overrides
  · intro f hf
    obtain ⟨e, -, rfl⟩ := List.mem_map.mp hf
    exact .str e.2

theorem allTexts_overridesJson {theme : Theme} (hp : ∀ t : Text, t.isScalar = true → p t = true)
    (htexts : ∀ t ∈ theme.texts, p t = true) : Json.AllTexts p theme.overridesJson := by
  refine .obj ?_ ?_
  · intro f hf
    obtain ⟨e, he, rfl⟩ := List.mem_map.mp hf
    obtain ⟨slot, rfl⟩ := exists_slot_of_mem_overrides he
    exact hp slot.name (isScalar_name slot)
  · intro f hf
    obtain ⟨e, he, rfl⟩ := List.mem_map.mp hf
    obtain ⟨slot, rfl⟩ := exists_slot_of_mem_overrides he
    exact .str (htexts _ (theme.get_mem_texts slot))

end Theme

/-! ## Tooltips -/

theorem Json.readable_ofTexts {room : Nat} (m : TextMap Text) :
    Json.Readable (room + 1) (Json.ofTexts m) := by
  refine .obj (m.mapValues Json.str).nodup ?_
  intro f hf
  obtain ⟨e, -, rfl⟩ := List.mem_map.mp hf
  exact .str e.2

theorem Json.allTexts_ofTexts {m : TextMap Text}
    (htexts : ∀ e ∈ m.entries, p e.1 = true ∧ p e.2 = true) :
    Json.AllTexts p (Json.ofTexts m) := by
  refine .obj ?_ ?_
  · intro f hf
    obtain ⟨e, he, rfl⟩ := List.mem_map.mp hf
    exact (htexts e he).1
  · intro f hf
    obtain ⟨e, he, rfl⟩ := List.mem_map.mp hf
    exact .str (htexts e he).2

theorem Session.readTexts_ofTexts (m : TextMap Text) :
    Session.readTexts (m.entries.map fun e => (e.1, .str e.2)) = m :=
  TextMap.ofList_mapValues Json.display_str m

/-! ## Annotations -/

namespace Annotation

theorem readable_toJson {room : Nat} (a : Annotation) : Json.Readable (room + 1) a.toJson := by
  have hkeys : ["description".toText, "role".toText, "notes".toText].Nodup := by decide
  refine .obj hkeys ?_
  simp only [List.mem_cons, List.not_mem_nil, or_false]
  rintro f (rfl | rfl | rfl)
  · exact .str a.description
  · exact .str a.role
  · exact .str a.notes

theorem allTexts_toJson {a : Annotation} (hp : ∀ t : Text, t.isScalar = true → p t = true)
    (htexts : ∀ t ∈ a.texts, p t = true) : Json.AllTexts p a.toJson := by
  have hnames : ∀ k ∈ ["description".toText, "role".toText, "notes".toText],
      Text.isScalar k = true := by decide
  obtain ⟨hdescription, hrole, hnotes⟩ : p a.description = true ∧ p a.role = true ∧
      p a.notes = true := by
    simpa [texts] using htexts
  refine .obj (fun f hf => hp f.1 (hnames f.1 (List.mem_map_of_mem hf))) ?_
  simp only [List.mem_cons, List.not_mem_nil, or_false]
  rintro f (rfl | rfl | rfl)
  · exact .str hdescription
  · exact .str hrole
  · exact .str hnotes

/-- The fields that are written for an annotation. -/
def toFields (a : Annotation) : List (Text × Json) :=
  [("description".toText, .str a.description), ("role".toText, .str a.role),
    ("notes".toText, .str a.notes)]

theorem ofFields_toFields (a : Annotation) : ofFields a.toFields = a := rfl

end Annotation

theorem Session.readable_annotations {room : Nat} (m : TextMap Annotation) :
    Json.Readable (room + 2) (.obj (m.mapValues Annotation.toJson).entries) := by
  refine .obj (m.mapValues Annotation.toJson).nodup ?_
  intro f hf
  obtain ⟨e, -, rfl⟩ := List.mem_map.mp hf
  exact e.2.readable_toJson

theorem Session.allTexts_annotations {m : TextMap Annotation}
    (hp : ∀ t : Text, t.isScalar = true → p t = true)
    (htexts : ∀ e ∈ m.entries, p e.1 = true ∧ ∀ t ∈ e.2.texts, p t = true) :
    Json.AllTexts p (.obj (m.mapValues Annotation.toJson).entries) := by
  refine .obj ?_ ?_
  · intro f hf
    obtain ⟨e, he, rfl⟩ := List.mem_map.mp hf
    exact (htexts e he).1
  · intro f hf
    obtain ⟨e, he, rfl⟩ := List.mem_map.mp hf
    exact Annotation.allTexts_toJson hp (htexts e he).2

/-- The fields of a session have plain names, and their values hold the texts of the session. -/
theorem Session.allTexts_toFields {s : Session} (hp : ∀ t : Text, t.isScalar = true → p t = true)
    (htexts : ∀ t ∈ s.texts, p t = true) :
    ∀ f ∈ s.toFields, p f.1 = true ∧ Json.AllTexts p f.2 := by
  simp only [Session.texts, List.forall_mem_cons, List.forall_mem_append, List.forall_mem_flatMap,
    List.not_mem_nil, false_imp_iff, implies_true, and_true] at htexts
  obtain ⟨hcode, hmode, ⟨htheme, htooltips⟩, hparticipants⟩ := htexts
  simp only [Session.toFields, List.forall_mem_cons]
  exact ⟨⟨hp _ rfl, .str hcode⟩, ⟨hp _ rfl, .str hmode⟩,
    ⟨hp _ rfl, Theme.allTexts_toJson hp htheme⟩, ⟨hp _ rfl, Json.allTexts_ofTexts htooltips⟩,
    ⟨hp _ rfl, Session.allTexts_annotations hp hparticipants⟩,
    fun f hf => absurd hf List.not_mem_nil⟩

/-- All values are objects when they are written for annotations. -/
theorem Session.allObjects?_toJson (entries : List (Text × Annotation)) :
    Session.allObjects? (entries.map fun e => (e.1, e.2.toJson)) =
      some (entries.map fun e => (e.1, e.2.toFields)) := by
  induction entries with
  | nil => rfl
  | cons entry entries ih =>
      simp only [List.map_cons, Session.allObjects?, Annotation.toJson, Json.fields?] at ih ⊢
      rw [ih]
      rfl

theorem Session.readAnnotations?_toJson (m : TextMap Annotation) :
    Session.readAnnotations? (m.mapValues Annotation.toJson).entries = some m := by
  unfold Session.readAnnotations?
  rw [TextMap.entries_mapValues, Session.allObjects?_toJson, Option.map_some,
    TextMap.ofList_mapValues Annotation.ofFields_toFields]

/-- The parts of a session are read from fields one by one. -/
structure Session.ReadFrom (fields : List (Text × Json)) (s : Session) : Prop where
  code : readCode fields = .ok s.code
  syntaxMode : readMode fields = .ok s.syntaxMode
  theme : readTheme fields = .ok s.theme
  tooltips : readTooltips fields = .ok s.tooltips
  participants : readParticipants fields = .ok s.participants

theorem Session.readFrom_of_ofFields {fields : List (Text × Json)} {s : Session}
    (h : ofFields fields = .ok s) : s.ReadFrom fields := by
  unfold ofFields at h
  simp only [bind, Except.bind] at h
  split at h
  · contradiction
  rename_i code hcode
  split at h
  · contradiction
  rename_i mode hmode
  split at h
  · contradiction
  rename_i theme htheme
  split at h
  · contradiction
  rename_i tooltips htooltips
  split at h
  · contradiction
  rename_i participants hparticipants
  rw [← Except.ok.inj h]
  exact ⟨hcode, hmode, htheme, htooltips, hparticipants⟩

end Lifeline
