import Lifeline.Proofs.Json.Depth
import Lifeline.Proofs.Session.Texts
import Lifeline.Record.Import

/-!
# Exported records

A session that is exported comes back when the record is imported, under any
name and at any time.  In the other direction everything can be handed to the
importer, a text or octets.  It ends with an error of its own or with a session
that could have been exported: what is asked of a value in between has been
checked before (`watchedSession_eq`).  The one other end is JSON that nests too deep, whose
error is not caught.  A record is written in ASCII, where the halves of a surrogate pair are read
as the character of the pair; a session that splits one does not come back.
-/

namespace Lifeline

variable {s : Session} {fields : List (Text × Json)} {v : Json}

/-! ## Exporting and importing -/

namespace Session

/-- A session that can be exported: it has a diagram in a known syntax. -/
structure Exportable (s : Session) : Prop where
  code_ne_nil : s.code ≠ []
  known : isKnownMode s.syntaxMode = true

/-- The fields that hold a session, wherever they stand. -/
structure HeldBy (s : Session) (fields : List (Text × Json)) : Prop where
  code : lookupEntry "code".toText fields = some (.str s.code)
  syntaxMode : lookupEntry "syntaxMode".toText fields = some (.str s.syntaxMode)
  theme : lookupEntry "colorTheme".toText fields = some s.theme.toJson
  tooltips : lookupEntry "customTooltips".toText fields = some (Json.ofTexts s.tooltips)
  participants : lookupEntry "customParticipants".toText fields =
    some (.obj (s.participants.mapValues Annotation.toJson).entries)

theorem readCode_of_heldBy (h : s.HeldBy fields) (hs : s.Exportable) :
    readCode fields = .ok s.code := by
  obtain ⟨c, code, hcode⟩ := List.exists_cons_of_ne_nil hs.code_ne_nil
  rw [readCode, h.code, hcode]

theorem readMode_of_heldBy (h : s.HeldBy fields) (hs : s.Exportable) :
    readMode fields = .ok s.syntaxMode := by
  have hgiven : (Json.str s.syntaxMode).isVoid = false := by
    show s.syntaxMode.isEmpty = false
    have hne : s.syntaxMode ≠ [] := by
      intro hnil
      have hknown := hs.known
      rw [hnil] at hknown
      exact absurd hknown (by decide)
    simpa using hne
  simp only [readMode, Json.givenField?, h.syntaxMode, hgiven, hs.known, Bool.false_eq_true,
    if_false, if_true]

theorem readTheme_of_heldBy (h : s.HeldBy fields) : readTheme fields = .ok s.theme := by
  rw [readTheme, h.theme]
  show Except.ok (Theme.ofFields _) = _
  rw [Theme.ofFields_colours]

theorem readTooltips_of_heldBy (h : s.HeldBy fields) : readTooltips fields = .ok s.tooltips := by
  simp only [readTooltips, Json.fieldOrNull, h.tooltips, Option.getD_some, Json.ofTexts,
    Json.fieldsOrVoid?_obj, readTexts_ofTexts]

theorem readParticipants_of_heldBy (h : s.HeldBy fields) :
    readParticipants fields = .ok s.participants := by
  simp only [readParticipants, Json.fieldOrNull, h.participants, Option.getD_some,
    Json.fieldsOrVoid?_obj, readAnnotations?_toJson]

/-- A session is read from fields that hold it. -/
theorem ofFields_of_heldBy (h : s.HeldBy fields) (hs : s.Exportable) : ofFields fields = .ok s := by
  simp only [ofFields, readCode_of_heldBy h hs, readMode_of_heldBy h hs, readTheme_of_heldBy h,
    readTooltips_of_heldBy h, readParticipants_of_heldBy h, bind, Except.bind]

/-! ## Checking first -/

@[simp] theorem fields?_obj (fs : List (Text × Json)) : (Json.obj fs).fields? = some fs := rfl

@[simp] theorem watchedFields_obj (fs : List (Text × Json)) :
    watchedFields (.obj fs) = .ok fs := rfl

@[simp] theorem isObject_obj (fs : List (Text × Json)) : isObject (.obj fs) = true := rfl

theorem isObject_of_fields? (h : v.fields? = none) : isObject v = false := by
  rw [isObject, h]
  rfl

theorem fields?_cases (v : Json) :
    (∃ fs, v = .obj fs) ∨ v.fields? = none := by
  cases v with
  | obj fs => exact Or.inl ⟨fs, rfl⟩
  | _ => exact Or.inr rfl

theorem fields?_fieldOrEmpty (fields : List (Text × Json)) (key : Text) :
    (fieldOrEmpty fields key).fields? = (Json.fieldOrNull fields key).fieldsOrVoid? := by
  unfold fieldOrEmpty Json.fieldsOrVoid?
  simp only
  split
  · rfl
  · rfl

theorem readTooltips_eq (fields : List (Text × Json)) :
    readTooltips fields =
      match (fieldOrEmpty fields "customTooltips".toText).fields? with
      | some texts => .ok (readTexts texts)
      | none => .error .tooltipsNotObject := by
  rw [fields?_fieldOrEmpty]
  rfl

theorem readParticipants_eq (fields : List (Text × Json)) :
    readParticipants fields =
      match (fieldOrEmpty fields "customParticipants".toText).fields? with
      | none => .error .participantsNotObjects
      | some entries =>
          match readAnnotations? entries with
          | some annotations => .ok annotations
          | none => .error .participantsNotObjects := by
  rw [fields?_fieldOrEmpty]
  rfl

/-- The theme is read, or the value is neither null nor an object. -/
theorem readTheme_cases (fields : List (Text × Json)) :
    (∃ theme, readTheme fields = .ok theme ∧
        watchedTheme (Json.fieldOrNull fields "colorTheme".toText) = .ok theme ∧
        ∀ tooltips participants,
          checkObjects (Json.fieldOrNull fields "colorTheme".toText) tooltips participants =
            checkObjects .null tooltips participants) ∨
      (readTheme fields = .error .themeNotObject ∧
        ∀ tooltips participants,
          checkObjects (Json.fieldOrNull fields "colorTheme".toText) tooltips participants =
            .error (.refused .themeNotObject)) := by
  unfold readTheme Json.fieldOrNull
  cases lookupEntry "colorTheme".toText fields with
  | none => exact Or.inl ⟨Theme.default, rfl, rfl, fun _ _ => rfl⟩
  | some v =>
      cases v with
      | null => exact Or.inl ⟨Theme.default, rfl, rfl, fun _ _ => rfl⟩
      | obj colours =>
          refine Or.inl ⟨Theme.ofFields colours, rfl, ?_, fun _ _ => rfl⟩
          -- An object without fields gives the default theme either way.
          cases colours with
          | nil => rfl
          | cons f colours => rfl
      | _ => exact Or.inr ⟨rfl, fun _ _ => rfl⟩

/-- The values under names are all objects, and then each is asked for its
fields, or one is none. -/
theorem allObjects?_cases (entries : List (Text × Json)) :
    (∃ objects, allObjects? entries = some objects ∧
        watchedObjects entries = .ok objects ∧ (entries.all fun e => isObject e.2) = true) ∨
      (allObjects? entries = none ∧ (entries.all fun e => isObject e.2) = false) := by
  induction entries with
  | nil => exact Or.inl ⟨[], rfl, rfl, rfl⟩
  | cons entry rest ih =>
      obtain ⟨k, v⟩ := entry
      rcases fields?_cases v with ⟨fs, rfl⟩ | hnone
      · rcases ih with ⟨objects, hall, hwatched, hobjects⟩ | ⟨hall, hobjects⟩
        · refine Or.inl ⟨(k, fs) :: objects, ?_, ?_, ?_⟩
          · simp only [allObjects?, fields?_obj, hall, Option.map_some]
          · simp only [watchedObjects, watchedFields_obj, hwatched, bind, Except.bind]
          · rw [List.all_cons, isObject_obj, hobjects, Bool.and_self]
        · refine Or.inr ⟨?_, ?_⟩
          · simp only [allObjects?, fields?_obj, hall, Option.map_none]
          · rw [List.all_cons, hobjects, Bool.and_false]
      · refine Or.inr ⟨?_, ?_⟩
        · simp only [allObjects?, hnone]
        · rw [List.all_cons, isObject_of_fields? hnone, Bool.false_and]

/-- Watching changes nothing: what is asked for its fields has been checked. -/
theorem watchedSession_eq (fields : List (Text × Json)) :
    watchedSession fields = (ofFields fields).mapError Fault.refused := by
  unfold watchedSession ofFields
  cases readCode fields with
  | error e => rfl
  | ok code =>
  cases readMode fields with
  | error e => rfl
  | ok mode =>
  simp only [Except.mapError, bind, Except.bind]
  rcases readTheme_cases fields with ⟨theme, hread, hwatched, hcheck⟩ | ⟨hread, hcheck⟩
  · simp only [hread, hwatched, hcheck, readTooltips_eq, readParticipants_eq]
    -- The checks and the readings go through the same fields: case by case they agree.
    generalize fieldOrEmpty fields "customTooltips".toText = tooltips
    generalize fieldOrEmpty fields "customParticipants".toText = participants
    rcases fields?_cases tooltips with ⟨texts, rfl⟩ | hnone
    · rcases fields?_cases participants with ⟨entries, rfl⟩ | hnone
      · rcases allObjects?_cases entries with ⟨objects, hall, hwatched, hobjects⟩ | ⟨hall, hobjects⟩
        · simp [checkObjects, readAnnotations?, hall, hwatched, hobjects]
        · simp [checkObjects, readAnnotations?, hall, hobjects]
      · simp [checkObjects, hnone]
    · simp [checkObjects, hnone, isObject_of_fields? hnone]
  · simp only [hread, hcheck]

/-! ## What was read -/

theorem ne_nil_of_readCode {code : Text} (h : readCode fields = .ok code) : code ≠ [] := by
  unfold readCode at h
  split at h
  · rw [← Except.ok.inj h]
    exact List.cons_ne_nil _ _
  · contradiction

theorem isKnownMode_of_readMode {mode : Text} (h : readMode fields = .ok mode) :
    isKnownMode mode = true := by
  unfold readMode at h
  split at h
  · rw [← Except.ok.inj h]
    decide
  · rename_i given hgiven
    by_cases hknown : isKnownMode given = true
    · rw [if_pos hknown] at h
      rw [← Except.ok.inj h]
      exact hknown
    · rw [if_neg hknown] at h
      contradiction
  · contradiction

/-- A session that fields describe can be exported. -/
theorem exportable_of_ofFields (h : ofFields fields = .ok s) : s.Exportable :=
  have hread := readFrom_of_ofFields h
  ⟨ne_nil_of_readCode hread.code, isKnownMode_of_readMode hread.syntaxMode⟩

end Session

namespace Record

theorem heldBy_fieldsWith (r : Record) (createdAt updatedAt : Json) :
    r.session.HeldBy (r.fieldsWith createdAt updatedAt) where
  code := rfl
  syntaxMode := rfl
  theme := rfl
  tooltips := rfl
  participants := rfl

/-- The fields of a record are readable when the times are. -/
theorem readable_fieldsWith {room : Nat} (r : Record) {createdAt updatedAt : Json}
    (hcreated : Json.Readable (room + 2) createdAt)
    (hupdated : Json.Readable (room + 2) updatedAt) :
    Json.Readable (room + 3) (.obj (r.fieldsWith createdAt updatedAt)) := by
  have hkeys : ["version".toText, "name".toText, "createdAt".toText, "updatedAt".toText,
      "code".toText, "syntaxMode".toText, "colorTheme".toText, "customTooltips".toText,
      "customParticipants".toText].Nodup := by decide
  refine .obj hkeys ?_
  simp only [fieldsWith, Session.toFields, List.cons_append, List.nil_append, List.forall_mem_cons]
  refine ⟨.str _, .str _, hcreated, hupdated, .str _, .str _, ?_, ?_, ?_, ?_⟩
  · exact r.session.theme.readable_toJson
  · exact Json.readable_ofTexts r.session.tooltips
  · exact Session.readable_annotations r.session.participants
  · exact fun f hf => absurd hf List.not_mem_nil

/-- A test that the times and all texts of a record pass is passed by all texts of its fields. -/
theorem allTexts_fieldsWith {p : Text → Bool} {r : Record} {createdAt updatedAt : Json}
    (hp : ∀ t : Text, t.isScalar = true → p t = true) (hversion : p r.version = true)
    (hname : p r.name = true) (hcreated : Json.AllTexts p createdAt)
    (hupdated : Json.AllTexts p updatedAt) (hsession : ∀ t ∈ r.session.texts, p t = true) :
    Json.AllTexts p (.obj (r.fieldsWith createdAt updatedAt)) := by
  have hfields : ∀ f ∈ r.fieldsWith createdAt updatedAt,
      p f.1 = true ∧ Json.AllTexts p f.2 := by
    simp only [fieldsWith, List.forall_mem_append, List.forall_mem_cons]
    exact ⟨⟨⟨hp _ rfl, .str hversion⟩, ⟨hp _ rfl, .str hname⟩, ⟨hp _ rfl, hcreated⟩,
      ⟨hp _ rfl, hupdated⟩, fun f hf => absurd hf List.not_mem_nil⟩,
      Session.allTexts_toFields hp hsession⟩
  exact .obj (fun f hf => (hfields f hf).1) fun f hf => (hfields f hf).2

/-- Every text that a record holds. -/
def texts (r : Record) : List Text :=
  r.version :: r.name :: r.createdAt :: r.updatedAt :: r.session.texts

/-- No surrogate stands in a text of the record. -/
def IsScalar (r : Record) : Prop :=
  ∀ t ∈ r.texts, t.isScalar = true

instance (r : Record) : Decidable r.IsScalar :=
  inferInstanceAs (Decidable (∀ t ∈ r.texts, t.isScalar = true))

/-- No text of the record splits a surrogate pair. -/
def IsUnsplit (r : Record) : Prop :=
  ∀ t ∈ r.texts, Json.isUnsplit t = true

instance (r : Record) : Decidable r.IsUnsplit :=
  inferInstanceAs (Decidable (∀ t ∈ r.texts, Json.isUnsplit t = true))

theorem IsScalar.isUnsplit {r : Record} (hr : r.IsScalar) : r.IsUnsplit :=
  fun t ht => Json.isUnsplit_of_isScalar (hr t ht)

theorem forall_mem_texts {p : Text → Prop} {r : Record} :
    (∀ t ∈ r.texts, p t) ↔
      p r.version ∧ p r.name ∧ p r.createdAt ∧ p r.updatedAt ∧ ∀ t ∈ r.session.texts, p t := by
  simp only [texts, List.forall_mem_cons]

theorem IsUnsplit.allTexts_toJson {r : Record} (h : r.IsUnsplit) :
    Json.AllTexts Json.isUnsplit r.toJson := by
  obtain ⟨hversion, hname, hcreated, hupdated, hsession⟩ := forall_mem_texts.mp h
  exact allTexts_fieldsWith (fun _ => Json.isUnsplit_of_isScalar) hversion hname (.str hcreated)
    (.str hupdated) hsession

/-- The record with its session, and with no split pair in its own texts. -/
def joined (r : Record) : Record where
  version := Json.joinPairs r.version
  name := Json.joinPairs r.name
  createdAt := Json.joinPairs r.createdAt
  updatedAt := Json.joinPairs r.updatedAt
  session := r.session

theorem toText_joined (r : Record) : r.joined.toText = r.toText := by
  have hjoined := @Json.writtenAlike_joinPairs Json.Layout.page rfl
  have hsame : List.Forall₂ (fun f g : Text × Json => f.1 = g.1 ∧
      Json.WrittenAlike Json.Layout.page f.2 g.2) r.session.toFields r.session.toFields :=
    List.forall₂_same.mpr fun f _ => ⟨rfl, fun _ => rfl⟩
  have halike : Json.WrittenAlike .page r.joined.toJson r.toJson :=
    Json.writtenAlike_obj (.cons ⟨rfl, hjoined r.version⟩ (.cons ⟨rfl, hjoined r.name⟩
      (.cons ⟨rfl, hjoined r.createdAt⟩ (.cons ⟨rfl, hjoined r.updatedAt⟩ hsame))))
  exact halike 0

/-- The text of a record is ASCII. -/
theorem isScalar_toText (r : Record) : r.toText.isScalar = true :=
  Json.isScalar_write_of_ascii Json.plain_page rfl
    (@readable_fieldsWith 0 r _ _ (.str r.createdAt) (.str r.updatedAt))

/-! ## Importing -/

section

variable [Json.Stack] {x : Source}

/-- The importer reads JSON and takes the session of an object. -/
theorem importSource_eq (x : Source) :
    importSource x = match x.parse with
      | .ok (.obj fields) => (Session.ofFields fields).mapError ImportFault.refused
      | .error .tooDeep => .error (.json .tooDeep)
      | _ => .error (.refused .notJson) := by
  unfold importSource
  cases x.parse with
  | error e => cases e <;> rfl
  | ok v =>
      cases v with
      | obj fields =>
          simp only [Session.watchedSession_eq]
          cases Session.ofFields fields with
          | ok s => rfl
          | error e => rfl
      | _ => rfl

/-- An object that holds a session is imported as the session. -/
theorem importSource_of_parse (h : x.parse = .ok (.obj fields))
    (hs : Session.ofFields fields = .ok s) :
    importSource x = .ok s := by
  simp only [importSource_eq, h, hs]
  rfl

/-- What ends an import is an error of records, or a nesting that is too deep. -/
theorem importSource_eq_error {fault : ImportFault} (h : importSource x = .error fault) :
    (∃ e, fault = .refused e) ∨ (fault = .json .tooDeep ∧ x.parse = .error .tooDeep) := by
  rw [importSource_eq] at h
  split at h
  · rename_i fields hparse
    cases hread : Session.ofFields fields with
    | ok s =>
        rw [hread] at h
        contradiction
    | error e =>
        rw [hread] at h
        exact Or.inl ⟨e, (Except.error.inj h).symm⟩
  · rename_i hparse
    exact Or.inr ⟨(Except.error.inj h).symm, hparse⟩
  · exact Or.inl ⟨.notJson, (Except.error.inj h).symm⟩

theorem exportable_of_importSource (h : importSource x = .ok s) : s.Exportable := by
  rw [importSource_eq] at h
  split at h
  · rename_i fields hparse
    apply Session.exportable_of_ofFields
    cases hread : Session.ofFields fields with
    | ok read =>
        rw [hread] at h
        rw [Except.ok.inj h]
    | error e =>
        rw [hread] at h
        contradiction
  · contradiction
  · contradiction

/-- A session that is imported from characters splits no surrogate pair. -/
theorem isUnsplit_of_importSource {t : Text} (ht : t.isScalar = true)
    (hx : x.parse = Json.parse t) (h : importSource x = .ok s) : s.IsUnsplit := by
  rw [importSource_eq, hx] at h
  split at h
  · rename_i fields hparse
    have htexts := Json.fieldsPass_of_allTexts (Json.allTexts_of_parse ht hparse)
    cases hread : Session.ofFields fields with
    | ok read =>
        rw [hread] at h
        rw [← Except.ok.inj h]
        exact Session.forall_mem_texts_of_ofFields (fun _ => Json.isUnsplit_of_isScalar) htexts
          hread
    | error e =>
        rw [hread] at h
        contradiction
  · contradiction
  · contradiction

/-- The text of a record is imported as its session. -/
theorem importSource_toText {r : Record} (hr : r.IsUnsplit) (hs : r.session.Exportable) :
    importSource (.text r.toText) = .ok r.session :=
  importSource_of_parse
    (Json.parse_write Json.punctuated_page (r.readable_fieldsWith (.str _) (.str _))
      hr.allTexts_toJson)
    (Session.ofFields_of_heldBy (r.heldBy_fieldsWith _ _) hs)

/-- A session comes back from its export, whatever its name and the clock, exactly when it splits
no surrogate pair. -/
theorem importSource_ofSession_iff (clock : Clock) (name : Option Text) (hs : s.Exportable) :
    importSource (.text (ofSession clock s name).toText) = .ok s ↔ s.IsUnsplit := by
  refine ⟨isUnsplit_of_importSource (isScalar_toText _) rfl, fun hunsplit => ?_⟩
  have hjoined : (ofSession clock s name).joined.IsUnsplit :=
    forall_mem_texts.mpr ⟨Json.isUnsplit_joinPairs _, Json.isUnsplit_joinPairs _,
      Json.isUnsplit_joinPairs _, Json.isUnsplit_joinPairs _, hunsplit⟩
  rw [← toText_joined]
  exact importSource_toText hjoined hs

end

/-- A session with a diagram in a known syntax comes back from its export under any name and at any
time, exactly when no surrogate pair is split in it.  Whatever else is imported, a text or octets,
is refused with an error of records, or it nests too deep, or it gives such a session.  In one that
is read from characters no pair is split, so that it comes back from its export as well. -/
theorem importSource_export [Json.Stack] :
    (∀ (clock : Clock) (s : Session) (name : Option Text), s.code ≠ [] →
        isKnownMode s.syntaxMode = true →
        (importSource (.text (ofSession clock s name).toText) = .ok s ↔ s.IsUnsplit)) ∧
      ∀ x : Source,
        (∀ fault, importSource x = .error fault →
          (∃ e, fault = .refused e) ∨ (fault = .json .tooDeep ∧ x.parse = .error .tooDeep)) ∧
        (x.parse = .error .tooDeep → importSource x = .error (.json .tooDeep)) ∧
        ∀ s, importSource x = .ok s →
          s.code ≠ [] ∧ isKnownMode s.syntaxMode = true ∧
            (∀ clock name,
              importSource (.text (ofSession clock s name).toText) = .ok s ↔ s.IsUnsplit) ∧
            ∀ t : Text, t.isScalar = true → x.parse = Json.parse t → s.IsUnsplit := by
  refine ⟨fun clock s name hcode hknown =>
    importSource_ofSession_iff clock name ⟨hcode, hknown⟩, fun x => ?_⟩
  refine ⟨fun fault hfault => importSource_eq_error hfault, ?_, fun s hs => ?_⟩
  · intro hdeep
    simp only [importSource_eq, hdeep]
  · have hexportable := exportable_of_importSource hs
    exact ⟨hexportable.code_ne_nil, hexportable.known,
      fun clock name => importSource_ofSession_iff clock name hexportable,
      fun t ht hx => isUnsplit_of_importSource ht hx hs⟩

/-- A record with a byte order mark, a colour that is no text and a tooltip that
is an array. -/
def handWritten : Bytes :=
  [0xEF, 0xBB, 0xBF] ++ Utf8.encode
    ("\x7b\"code\": \"A->>B: é\", \"colorTheme\": \x7b\"text\": 7\x7d, ".toText ++
      "\"customTooltips\": \x7b\"m\": [null, 1]\x7d\x7d".toText)

/-- The session that is imported from it. -/
def handWrittenSession : Session :=
  { Session.ofCode "A->>B: é".toText mermaidMode with
    theme := { Theme.default with text := "7".toText }
    tooltips := TextMap.ofList [("m".toText, "[None, 1]".toText)] }

theorem importSource_export_handWritten :
    @importSource .usual (.octets handWritten) = .ok handWrittenSession ∧
      handWrittenSession.IsUnsplit ∧
      ∀ clock name, @importSource .usual (.text (ofSession clock handWrittenSession name).toText) =
        .ok handWrittenSession := by
  have hread : (@importSource .usual (.octets handWritten)).toOption = some handWrittenSession := by
    decide +kernel
  have himport : @importSource .usual (.octets handWritten) = .ok handWrittenSession := by
    cases hanswer : @importSource .usual (.octets handWritten) with
    | error e =>
        rw [hanswer] at hread
        contradiction
    | ok s =>
        rw [hanswer] at hread
        rw [Option.some.inj hread]
  obtain ⟨-, himported⟩ := @importSource_export .usual
  obtain ⟨-, -, hsession⟩ := himported (.octets handWritten)
  obtain ⟨-, -, hback, -⟩ := hsession handWrittenSession himport
  have hunsplit : handWrittenSession.IsUnsplit := by decide
  exact ⟨himport, hunsplit, fun clock name => (hback clock name).mpr hunsplit⟩

/-- Brackets, more than there is room for, get past what the importer catches. -/
theorem importSource_brackets :
    @importSource .usual (.text (List.replicate 991 (.char '['))) = .error (.json .tooDeep) := by
  have hparse : @Json.parse .usual (List.replicate 991 (.char '[') ++ []) = .error .tooDeep :=
    @Json.parse_replicate .usual []
  rw [List.append_nil] at hparse
  simp only [@importSource_eq .usual, Source.parse, hparse]

end Record
end Lifeline
