import Lifeline.Proofs.Json.Octets
import Lifeline.Proofs.Record
import Lifeline.Proofs.Service.Replies
import Lifeline.Proofs.Text.Pieces

/-!
# Exporting and importing over the service

An object in the body of a request is exported as a record when it describes a session and
names it by a text, if at all.  The record comes with a file name of small letters, digits and
hyphens, and in whatever layout it is sent back, its session is the answer
(`exportRecord_importRecord`).  A session that is not described is refused with the reason.  A
name of another kind than a text is no reason to refuse the request, but there is no reply to
it either (`exportRecord_fails_over_number`); neither is there one to a text with a surrogate,
for the record is sent as UTF-8.
-/

namespace Lifeline

variable {body : Bytes} {fields : List (Text × Json)} {s : Session} {c : CodePoint}

/-! ## File names -/

/-- A small letter, a digit or a hyphen. -/
def isFileChar (c : CodePoint) : Bool :=
  c.isLower || c.isDigit || c == '-'

theorem isFileChar_toLower (hc : c.isAlphanum = true) : isFileChar c.toLower = true := by
  unfold isFileChar
  by_cases halpha : c.isAlpha = true
  · rw [CodePoint.isLower_toLower_eq_isAlpha, halpha]
    rfl
  · -- What is no letter is a digit, and it stays one.
    have hdigit : c.isDigit = true := (Bool.or_eq_true_iff.mp hc).resolve_left halpha
    have hupper : ¬ c.isUpper = true := fun h => halpha (by rw [CodePoint.isAlpha, h, Bool.true_or])
    rw [CodePoint.toLower_eq_of_not_isUpper hupper, hdigit, Bool.or_true, Bool.true_or]

/-- A file name is a stem of small letters, digits and hyphens, and the ending. -/
theorem Record.exists_fileName_eq (name : Text) :
    ∃ stem, Record.fileName name = stem ++ ".json".toText ∧ ∀ c ∈ stem, isFileChar c = true := by
  refine ⟨_, rfl, fun c hc => ?_⟩
  obtain ⟨b, -, rfl⟩ := List.mem_map.mp hc
  by_cases hb : b.isAlphanum = true
  · rw [if_pos hb]
    exact isFileChar_toLower hb
  · rw [if_neg hb]
    decide

example : Record.fileName "Café: Login 2".toText = "caf---login-2.json".toText := by decide

/-! ## Sessions and records in octets -/

theorem Theme.isSendable_toJson {room : Nat} (theme : Theme) :
    theme.toJson.isSendable (room + 1) = true ↔ ∀ t ∈ theme.texts, t.isScalar = true := by
  simp only [Theme.toJson, Theme.texts, Json.isSendable_obj, Json.isSendable_str, List.all_eq_true,
    List.forall_mem_map, Theme.isScalar_name, Bool.true_and]

theorem Json.isSendable_ofTexts {room : Nat} (m : TextMap Text) :
    (Json.ofTexts m).isSendable (room + 1) = true ↔
      ∀ e ∈ m.entries, e.1.isScalar = true ∧ e.2.isScalar = true := by
  simp only [Json.ofTexts, Json.isSendable_obj, Json.isSendable_str, List.all_eq_true,
    List.forall_mem_map, Bool.and_eq_true]

theorem Annotation.isSendable_toJson {room : Nat} (a : Annotation) :
    a.toJson.isSendable (room + 1) = true ↔ ∀ t ∈ a.texts, t.isScalar = true := by
  simp only [ Annotation.toJson, Annotation.texts, Json.isSendable_obj, Json.isSendable_str,
    List.all_eq_true, List.forall_mem_cons, Text.isScalar_toText, Bool.true_and]
  simp only [List.not_mem_nil, false_imp_iff, implies_true]

/-- What is written for a session can be sent when no surrogate stands in a text: it nests three
deep, and it has no numbers. -/
theorem Session.isSendable_toFields {room : Nat} (s : Session) :
    (s.toFields.all fun f => f.1.isScalar && f.2.isSendable (room + 2)) = true ↔ s.IsScalar := by
  have hparticipants : (Json.obj (s.participants.mapValues Annotation.toJson).entries).isSendable
      (room + 2) = true ↔
        ∀ e ∈ s.participants.entries, e.1.isScalar = true ∧ ∀ t ∈ e.2.texts, t.isScalar = true := by
    simp only [Json.isSendable_obj, TextMap.entries_mapValues, List.all_eq_true,
      List.forall_mem_map, Bool.and_eq_true, Annotation.isSendable_toJson]
  simp only [Session.toFields, Session.IsScalar, Session.texts, List.all_cons, List.all_nil,
    Bool.and_true, Bool.and_eq_true, Text.isScalar_toText, true_and, Json.isSendable_str,
    Theme.isSendable_toJson, Json.isSendable_ofTexts, hparticipants, List.forall_mem_cons,
    List.forall_mem_append, List.forall_mem_flatMap, List.mem_singleton, forall_eq, and_assoc]

namespace Service

section

variable [Json.Stack]

/-! ## Replies -/

theorem ofJson_session (hs : s.IsScalar) :
    Reply.ofJson 200 s.toJson = .json 200 s.toJson none := by
  have hsendable : s.toJson.isSendable Json.Stack.room = true := by
    rw [Session.toJson, Json.Stack.room, Json.isSendable_obj]
    exact s.isSendable_toFields.mpr hs
  rw [Reply.ofJson, Reply.ofFile, if_pos hsendable]

/-- A record can be sent when no surrogate stands in its texts. -/
theorem isSendable_record (r : Record) :
    r.toJson.isSendable Json.Stack.room = true ↔ r.IsScalar := by
  rw [Record.IsScalar, Record.forall_mem_texts, Record.toJson, Json.Stack.room,
    Json.isSendable_obj]
  simp only [Record.toFields, Record.fieldsWith, List.all_append, List.all_cons, List.all_nil,
    Text.isScalar_toText, Json.isSendable_str, Bool.and_true, Bool.true_and, Bool.and_eq_true,
    Session.isSendable_toFields, Session.IsScalar, and_assoc]

theorem ofFile_record (r : Record) (fileName? : Option Text) :
    Reply.ofFile 200 r.toJson fileName? =
      if r.IsScalar then .json 200 r.toJson fileName? else .failure := by
  simp only [Reply.ofFile, isSendable_record]

theorem importRecord_encode_write {layout : Json.Layout} (hlayout : layout.Punctuated)
    {r : Record} (hr : r.IsScalar) (hs : r.session.Exportable) :
    importRecord (Utf8.encode (Json.write layout r.toJson)) =
      .json 200 r.session.toJson none := by
  have hparse : Json.parseBytes (Utf8.encode (Json.write layout r.toJson)) = .ok r.toJson :=
    Json.parseBytes_encode_write hlayout (r.readable_fieldsWith (.str _) (.str _))
      hr.isUnsplit.allTexts_toJson
  have himport : Record.importSource (.octets (Utf8.encode (Json.write layout r.toJson))) =
      .ok r.session :=
    Record.importSource_of_parse hparse (Session.ofFields_of_heldBy (r.heldBy_fieldsWith _ _) hs)
  rw [importRecord, himport]
  exact ofJson_session (Record.forall_mem_texts.mp hr).2.2.2.2

/-- The name in the fields of a body is a text, or it counts as none. -/
def NamedByText (fields : List (Text × Json)) : Prop :=
  ∀ v, Json.givenField? fields "name".toText = some v → ∃ t, v = .str t

/-- The name in the fields of a body, if it is a text. -/
def bodyName? (fields : List (Text × Json)) : Option Text :=
  match Json.givenField? fields "name".toText with
  | some (.str name) => some name
  | _ => none

/-- There is a reply to a session that is exported: its name is a text or counts as none, and no
surrogate stands in its record. -/
structure CanBeExported (clock : Clock) (fields : List (Text × Json)) (s : Session) : Prop where
  named : NamedByText fields
  scalar : (Record.ofSession clock s (bodyName? fields)).IsScalar

theorem exportRecord_of_error {e : RecordError} (clock : Clock)
    (hbody : Json.parseBytes body = .ok (.obj fields)) (he : Session.ofFields fields = .error e) :
    exportRecord clock body = .badRequest e.message := by
  simp only [exportRecord, bodyFields, hbody, bodySession, he, bind, Except.bind, settled]

theorem exportRecord_of_ok (clock : Clock) (hbody : Json.parseBytes body = .ok (.obj fields))
    (hs : Session.ofFields fields = .ok s) :
    (CanBeExported clock fields s ∧ exportRecord clock body =
        .json 200 (Record.ofSession clock s (bodyName? fields)).toJson
          (some (Record.fileName (Record.ofSession clock s (bodyName? fields)).name))) ∨
      (¬ CanBeExported clock fields s ∧ exportRecord clock body = .failure) := by
  have hreply : (NamedByText fields ∧ exportRecord clock body =
        .ofFile 200 (Record.ofSession clock s (bodyName? fields)).toJson
          (some (Record.fileName (Record.ofSession clock s (bodyName? fields)).name))) ∨
      (¬ NamedByText fields ∧ exportRecord clock body = .failure) := by
    simp only [exportRecord, bodyFields, hbody, bodySession, hs, bind, Except.bind, settled,
      NamedByText, bodyName?]
    cases hname : Json.givenField? fields "name".toText with
    | none => exact Or.inl ⟨fun v hv => absurd hv (by simp), rfl⟩
    | some v =>
        cases v with
        | str t => exact Or.inl ⟨fun v hv => ⟨t, (Option.some.inj hv).symm⟩, rfl⟩
        | _ =>
            refine Or.inr ⟨fun h => ?_, rfl⟩
            obtain ⟨t, ht⟩ := h _ rfl
            contradiction
  -- A record that was made is sent only if all its texts are characters.
  rcases hreply with ⟨hname, hreply⟩ | ⟨hname, hreply⟩
  · rw [ofFile_record] at hreply
    split at hreply
    · exact Or.inl ⟨⟨hname, ‹_›⟩, hreply⟩
    · exact Or.inr ⟨fun h => absurd h.scalar ‹_›, hreply⟩
  · exact Or.inr ⟨fun h => hname h.named, hreply⟩

/-- An object that describes no session is refused with the reason.  One that does is exported
when its name is a text or counts as none, and all texts are characters: as a record of this
session, with a file name of small letters, digits and hyphens, and sending the record back in
any layout gives the session.  Anything else fails. -/
theorem exportRecord_importRecord (clock : Clock)
    (hbody : Json.parseBytes body = .ok (.obj fields)) :
    (∀ e, Session.ofFields fields = .error e →
        exportRecord clock body = .badRequest e.message ∧
          (exportRecord clock body).status = 400) ∧
      ∀ s, Session.ofFields fields = .ok s →
        ((exportRecord clock body).status = 200 ↔ CanBeExported clock fields s) ∧
          (CanBeExported clock fields s →
            ∃ r stem, exportRecord clock body =
                .json 200 (Record.toJson r) (some (stem ++ ".json".toText)) ∧
              r = Record.ofSession clock s (bodyName? fields) ∧
              (∀ c ∈ stem, isFileChar c = true) ∧
              ∀ layout : Json.Layout, layout.Punctuated →
                importRecord (Utf8.encode (Json.write layout r.toJson)) =
                  .json 200 s.toJson none) ∧
          (¬ CanBeExported clock fields s → exportRecord clock body = .failure) := by
  refine ⟨fun e he => ?_, fun s hs => ?_⟩
  · have hrefused := exportRecord_of_error clock hbody he
    have hstatus := (Reply.isRefusal_badRequest e.isScalar_message).status_eq
    exact ⟨hrefused, by rw [hrefused, hstatus]⟩
  -- Both sides of the iff are decided together: the record can be sent, or the reply is a failure.
  rcases exportRecord_of_ok clock hbody hs with ⟨hcan, hreply⟩ | ⟨hcannot, hreply⟩
  · refine ⟨iff_of_true (by rw [hreply]; rfl) hcan, fun _ => ?_, fun h => absurd hcan h⟩
    obtain ⟨stem, hstem, hchars⟩ :=
      Record.exists_fileName_eq (Record.ofSession clock s (bodyName? fields)).name
    refine ⟨_, stem, by rw [hreply, hstem], rfl, hchars, fun layout hlayout => ?_⟩
    exact importRecord_encode_write hlayout hcan.scalar (Session.exportable_of_ofFields hs)
  · refine ⟨iff_of_false ?_ hcannot, fun h => absurd h hcannot, fun _ => hreply⟩
    rw [hreply]
    decide

end

/-! ## Two bodies -/

/-- A session with a name that no file could have, and a tooltip that is null. -/
def namedFields : List (Text × Json) :=
  [("code".toText, .str "A->>B: x".toText), ("name".toText, .str "Café: Login 2".toText),
    ("customTooltips".toText, .obj [("msg-0".toText, .null)])]

/-- The session of these fields. -/
def namedSession : Session :=
  { Session.ofCode "A->>B: x".toText mermaidMode with
    tooltips := TextMap.ofList [("msg-0".toText, "None".toText)] }

theorem readable_namedFields [Json.Stack] :
    Json.Readable Json.Stack.room (.obj namedFields) := by
  refine .obj (by decide) ?_
  simp only [namedFields, List.forall_mem_cons]
  refine ⟨.str _, .str _, .obj (by decide) ?_, List.forall_mem_nil _⟩
  exact List.forall_mem_singleton.mpr .null

theorem isUnsplit_namedFields : Json.AllTexts Json.isUnsplit (.obj namedFields) := by
  refine .obj (by decide) ?_
  simp only [namedFields, List.forall_mem_cons]
  refine ⟨.str (by decide), .str (by decide), .obj (by decide) ?_, List.forall_mem_nil _⟩
  exact List.forall_mem_singleton.mpr .null

theorem exportRecord_importRecord_named :
    ∃ r stem, @exportRecord .usual ⟨"t1".toText, "d1".toText⟩
          (Utf8.encode (Json.write .dense (.obj namedFields))) =
        .json 200 (Record.toJson r) (some (stem ++ ".json".toText)) ∧
      (∀ c ∈ stem, isFileChar c = true) ∧
      @importRecord .usual (Utf8.encode (Json.write .dense r.toJson)) =
        .json 200 namedSession.toJson none := by
  have hbody := @Json.parseBytes_encode_write _ _ .usual Json.punctuated_dense
    (@readable_namedFields .usual) isUnsplit_namedFields
  have hs : Session.ofFields namedFields = .ok namedSession := rfl
  have hcan : CanBeExported ⟨"t1".toText, "d1".toText⟩ namedFields namedSession :=
    ⟨fun v hv => ⟨_, (Option.some.inj hv).symm⟩, by decide⟩
  obtain ⟨-, hexport, -⟩ :=
    (@exportRecord_importRecord _ _ .usual ⟨"t1".toText, "d1".toText⟩ hbody).2 namedSession hs
  obtain ⟨r, stem, hreply, -, hchars, himport⟩ := hexport hcan
  exact ⟨r, stem, hreply, hchars, himport _ Json.punctuated_dense⟩

/-- A session whose name is a number. -/
def numberedFields : List (Text × Json) :=
  [("code".toText, .str "A->>B: x".toText), ("name".toText, .int 5)]

theorem readable_numberedFields [Json.Stack] :
    Json.Readable Json.Stack.room (.obj numberedFields) := by
  refine .obj (by decide) ?_
  simp only [numberedFields, List.forall_mem_cons]
  exact ⟨.str _, .int (by decide), List.forall_mem_nil _⟩

theorem isUnsplit_numberedFields : Json.AllTexts Json.isUnsplit (.obj numberedFields) := by
  refine .obj (by decide) ?_
  simp only [numberedFields, List.forall_mem_cons]
  exact ⟨.str (by decide), .int _, List.forall_mem_nil _⟩

/-- Such a body describes a session, and there is no reply to it. -/
theorem exportRecord_fails_over_number :
    @Json.parseBytes .usual (Utf8.encode (Json.write .dense (.obj numberedFields))) =
        .ok (.obj numberedFields) ∧
      Session.ofFields numberedFields =
        .ok (Session.ofCode "A->>B: x".toText mermaidMode) ∧
      ∀ clock, (@exportRecord .usual clock
        (Utf8.encode (Json.write .dense (.obj numberedFields)))).status = 500 := by
  have hbody := @Json.parseBytes_encode_write _ _ .usual Json.punctuated_dense
    (@readable_numberedFields .usual) isUnsplit_numberedFields
  have hs : Session.ofFields numberedFields =
      .ok (Session.ofCode "A->>B: x".toText mermaidMode) := rfl
  refine ⟨hbody, hs, fun clock => ?_⟩
  rcases @exportRecord_of_ok _ _ _ .usual clock hbody hs with ⟨hcan, -⟩ | ⟨-, hreply⟩
  · have hgiven : Json.givenField? numberedFields "name".toText = some (.int 5) := rfl
    obtain ⟨t, ht⟩ := hcan.named (.int 5) hgiven
    exact Json.noConfusion ht
  · rw [hreply]
    rfl

end Service
end Lifeline
