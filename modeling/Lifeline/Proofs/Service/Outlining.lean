import Lifeline.Proofs.Json.Octets
import Lifeline.Proofs.Service.Replies
import Lifeline.Proofs.Session

/-!
# Outlines over the service

A request for an outline ends with a reply or with a failure, whatever octets are its body.
The reply is 200 with a description of each message when the body asks for the outline of a
diagram and its tooltips can be sent, and else it is 400.

There are two kinds of failures (`parse_status`).  One lies in the body: an integer in it is too
long to be read, or it nests too deeply.  The other one lies in the description.  Nobody checks the
tooltips: they are neither an object nor void although there is a message to look up, or a
description that is made of them cannot be sent.  A surrogate in the diagram cannot be sent
either (`isSendable_outlineBody`).
-/

namespace Lifeline.Service

variable {body : Bytes} {fields : List (Text × Json)} {mermaid : Text} {outline : Mermaid.Outline}
  {steps : List Mermaid.Step}

/-! ## Requests for an outline -/

/-- A body asks for an outline that can be had: it is an object with a diagram in a known
syntax, and all lines of the diagram are recognised if they have to be. -/
structure AsksFor [Json.Stack] (body : Bytes) (fields : List (Text × Json)) (mermaid : Text)
    (outline : Mermaid.Outline) : Prop where
  parsed : Json.parseBytes body = .ok (.obj fields)
  read : ∃ code mode, lookupEntry "code".toText fields = some (.str code) ∧
    (lookupEntry "syntaxMode".toText fields).getD (.str mermaidMode) = .str mode ∧
    isKnownMode mode = true ∧
    Mermaid.readDiagram (switch fields "strict".toText) mode code = .ok (mermaid, outline)

/-- The tooltips in the fields of a body; null when they are missing. -/
def bodyTooltips (fields : List (Text × Json)) : Json :=
  Json.fieldOrNull fields "customTooltips".toText

/-- The tooltip that the fields of a body give a message: what stands under the key of the
message in an object of tooltips, unless it is void. -/
def tooltip? (fields : List (Text × Json)) (s : Mermaid.Step) : Option Json :=
  match bodyTooltips fields with
  | .obj tooltips => Json.givenField? tooltips s.key
  | _ => none

/-- A message with its tooltip, or else with its caption. -/
def described (fields : List (Text × Json)) (s : Mermaid.Step) : Json :=
  .obj [("text".toText, .str s.message.text),
    ("description".toText, (tooltip? fields s).getD (.str s.caption))]

/-- No message finds its tooltip: there is a message, and the tooltips are neither an object nor
void. -/
def TooltipsAreStray (fields : List (Text × Json)) (steps : List Mermaid.Step) : Prop :=
  steps ≠ [] ∧ (bodyTooltips fields).isVoid = false ∧
    ∀ tooltips, bodyTooltips fields ≠ .obj tooltips

/-- The description of an outline. -/
def outlineBody (fields : List (Text × Json)) (mermaid : Text) (outline : Mermaid.Outline) : Json :=
  .obj [("mermaid".toText, .str mermaid),
    ("participants".toText, .arr (outline.participants.map Mermaid.Participant.toJson)),
    ("messages".toText, .arr (outline.steps.map Mermaid.Step.toJson)),
    ("steps".toText, .arr (outline.steps.map (described fields)))]

/-- An outline is described when no tooltip is stray and its description can be sent. -/
structure CanBeDescribed [Json.Stack] (fields : List (Text × Json)) (mermaid : Text)
    (outline : Mermaid.Outline) : Prop where
  notStray : ¬ TooltipsAreStray fields outline.steps
  sendable : (outlineBody fields mermaid outline).isSendable Json.Stack.room = true

/-- A body is not read through: an integer in it is too long, or it nests too deeply. -/
def IsUnreadable [Json.Stack] (body : Bytes) : Prop :=
  Json.parseBytes body = .error .longInteger ∨ Json.parseBytes body = .error .tooDeep

/-! ## Tooltips -/

theorem tooltip?_of_obj {tooltips : List (Text × Json)} (h : bodyTooltips fields = .obj tooltips)
    (s : Mermaid.Step) : tooltip? fields s = Json.givenField? tooltips s.key := by
  rw [tooltip?, h]

theorem tooltip?_eq_none (h : ∀ tooltips, bodyTooltips fields ≠ .obj tooltips)
    (s : Mermaid.Step) : tooltip? fields s = none := by
  unfold tooltip?
  split
  · exact absurd ‹_› (h _)
  · rfl

theorem fields?_eq_none {v : Json} (h : ∀ tooltips, v ≠ .obj tooltips) : v.fields? = none := by
  cases v with
  | obj tooltips => exact absurd rfl (h tooltips)
  | _ => rfl

/-- Messages are described by an object in which they find the tooltips that the body gives. -/
theorem map_describe {tooltips : List (Text × Json)}
    (h : ∀ s : Mermaid.Step, tooltip? fields s = Json.givenField? tooltips s.key) :
    steps.map (Mermaid.Step.describe tooltips) = steps.map (described fields) := by
  refine List.map_congr_left fun s _ => ?_
  rw [Mermaid.Step.describe, Mermaid.Step.description, described, h s]
  cases Json.givenField? tooltips s.key with
  | none => rfl
  | some v => rfl

/-- The messages are described one by one, or the tooltips are stray. -/
theorem describeSteps?_cases (fields : List (Text × Json)) (steps : List Mermaid.Step) :
    (¬ TooltipsAreStray fields steps ∧
        Mermaid.describeSteps? steps (bodyTooltips fields) =
          some (steps.map (described fields))) ∨
      (TooltipsAreStray fields steps ∧
        Mermaid.describeSteps? steps (bodyTooltips fields) = none) := by
  unfold Mermaid.describeSteps?
  -- Tooltips are an object, or void, or stray.
  by_cases hobj : ∃ tooltips, bodyTooltips fields = .obj tooltips
  · obtain ⟨tooltips, htooltips⟩ := hobj
    refine Or.inl ⟨fun h => h.2.2 tooltips htooltips, ?_⟩
    rw [htooltips, Json.fieldsOrVoid?_obj]
    exact congrArg some (map_describe (tooltip?_of_obj htooltips))
  · have hnone : ∀ tooltips, bodyTooltips fields ≠ .obj tooltips :=
      fun tooltips h => hobj ⟨tooltips, h⟩
    rw [Json.fieldsOrVoid?]
    by_cases hvoid : (bodyTooltips fields).isVoid = true
    · refine Or.inl ⟨fun h => Bool.false_ne_true (h.2.1.symm.trans hvoid), ?_⟩
      rw [if_pos hvoid]
      exact congrArg some (map_describe (tooltip?_eq_none hnone))
    · -- Only now it matters whether there is a message to look up.
      rw [if_neg hvoid, fields?_eq_none hnone]
      cases steps with
      | nil => exact Or.inl ⟨fun h => h.1 rfl, rfl⟩
      | cons s steps =>
          exact Or.inr ⟨⟨List.cons_ne_nil s steps, Bool.eq_false_of_not_eq_true hvoid, hnone⟩, rfl⟩

/-! ## Descriptions that can be sent -/

theorem isSendable_participant {room : Nat} (p : Mermaid.Participant) :
    p.toJson.isSendable (room + 1) = (p.name.isScalar && p.label?.all Text.isScalar) := by
  have hkind : (if p.isActor then "actor".toText else "participant".toText).isScalar = true := by
    split <;> rfl
  unfold Mermaid.Participant.toJson
  cases p.label? <;>
    simp only [Json.isSendable_obj, List.all_cons, List.all_nil, Text.isScalar_toText,
      Json.isSendable_str, Json.isSendable_null, hkind, Bool.true_and, Bool.and_true,
      Option.all_some, Option.all_none]

theorem isScalar_key (s : Mermaid.Step) : s.key.isScalar = true := by
  rw [Mermaid.Step.key, Text.isScalar_append, Text.isScalar_toText, Text.isScalar_ofNat]
  rfl

theorem isSendable_step {room : Nat} (s : Mermaid.Step) :
    s.toJson.isSendable (room + 1) = (s.message.source.isScalar &&
      (s.message.target.isScalar && s.message.text.isScalar)) := by
  simp only [Mermaid.Step.toJson, Json.isSendable_obj, List.all_cons, List.all_nil,
    Text.isScalar_toText, Json.isSendable_str, Json.isSendable_int, Json.isSendable_bool,
    isScalar_key, Bool.true_and, Bool.and_true]

/-- A description can be sent exactly when its texts are characters and the messages can be sent
with their tooltips. -/
theorem isSendable_outlineBody {room : Nat} :
    (outlineBody fields mermaid outline).isSendable (room + 3) = true ↔
      mermaid.isScalar = true ∧
        (∀ p ∈ outline.participants, p.name.isScalar = true ∧ p.label?.all Text.isScalar = true) ∧
        ∀ s ∈ outline.steps, (s.message.source.isScalar = true ∧ s.message.target.isScalar = true ∧
          s.message.text.isScalar = true) ∧ (described fields s).isSendable (room + 1) = true := by
  simp only [outlineBody, Json.isSendable_obj, Json.isSendable_arr, Json.isSendable_str,
    List.all_cons, List.all_nil, List.all_map, Function.comp_def, Text.isScalar_toText,
    isSendable_participant, isSendable_step, List.all_eq_true, Bool.true_and, Bool.and_true,
    Bool.and_eq_true, forall_and]

section

variable [Json.Stack]

/-! ## Fields of a body -/

theorem bodyFields_cases (body : Bytes) :
    (∃ fields, Json.parseBytes body = .ok (.obj fields) ∧ bodyFields body = .ok fields) ∨
      (∃ r, r.IsRefusal ∧ bodyFields body = .error r) ∨
      (IsUnreadable body ∧ bodyFields body = .error .failure) := by
  unfold bodyFields IsUnreadable
  cases Json.parseBytes body with
  | error e =>
      cases e with
      | malformed =>
          exact Or.inr (Or.inl ⟨_, Reply.isRefusal_badRequest (Text.isScalar_toText _), rfl⟩)
      | longInteger => exact Or.inr (Or.inr ⟨Or.inl rfl, rfl⟩)
      | tooDeep => exact Or.inr (Or.inr ⟨Or.inr rfl, rfl⟩)
  | ok v =>
      cases v with
      | obj fields => exact Or.inl ⟨fields, rfl, rfl⟩
      | _ => exact Or.inr (Or.inl ⟨_, Reply.isRefusal_badRequest (Text.isScalar_toText _), rfl⟩)

theorem bodyCode_cases (fields : List (Text × Json)) :
    (∃ code, lookupEntry "code".toText fields = some (.str code) ∧
        bodyCode fields = .ok code) ∨
      ∃ r, r.IsRefusal ∧ bodyCode fields = .error r := by
  unfold bodyCode
  split
  · exact Or.inl ⟨_, ‹_›, rfl⟩
  · exact Or.inr ⟨_, Reply.isRefusal_badRequest (Text.isScalar_toText _), rfl⟩

theorem bodyMode_cases (fields : List (Text × Json)) :
    (∃ mode, (lookupEntry "syntaxMode".toText fields).getD (.str mermaidMode) = .str mode ∧
        isKnownMode mode = true ∧ bodyMode fields = .ok mode) ∨
      ∃ r, r.IsRefusal ∧ bodyMode fields = .error r := by
  have hrefusal : ∀ shown : Text, shown.isScalar = true →
      (Reply.badRequest ("unknown syntaxMode ".toText ++ shown)).IsRefusal := by
    intro shown hshown
    apply Reply.isRefusal_badRequest
    rw [Text.isScalar_append, Text.isScalar_toText, hshown]
    rfl
  unfold bodyMode
  split
  · split
    · exact Or.inl ⟨_, ‹_›, ‹_›, rfl⟩
    · exact Or.inr ⟨_, hrefusal _ (Json.isScalar_quoted _), rfl⟩
  · exact Or.inr ⟨_, hrefusal _ (Json.isScalar_shown _), rfl⟩

/-! ## Replies -/

theorem parse_of_asksFor (h : AsksFor body fields mermaid outline) :
    (CanBeDescribed fields mermaid outline ∧
        parse body = .json 200 (outlineBody fields mermaid outline) none) ∨
      (¬ CanBeDescribed fields mermaid outline ∧ parse body = .failure) := by
  obtain ⟨hbody, code, mode, hcode, hmode, hknown, hread⟩ := h
  simp only [parse, bodyFields, hbody, bodyCode, hcode, bodyMode, hmode, hknown, if_true, hread,
    bind, Except.bind]
  rcases describeSteps?_cases fields outline.steps with ⟨hstray, hsteps⟩ | ⟨hstray, hsteps⟩
  · rw [← bodyTooltips, hsteps]
    show (_ ∧ Reply.ofJson 200 (outlineBody fields mermaid outline) = _) ∨
      (_ ∧ Reply.ofJson 200 (outlineBody fields mermaid outline) = _)
    rw [Reply.ofJson, Reply.ofFile]
    split
    · exact Or.inl ⟨⟨hstray, ‹_›⟩, rfl⟩
    · exact Or.inr ⟨fun h => absurd h.sendable ‹_›, rfl⟩
  · rw [← bodyTooltips, hsteps]
    exact Or.inr ⟨fun h => h.notStray hstray, rfl⟩

/-- A body asks for an outline that can be had, or it is refused, or it is not read through. -/
theorem parse_cases (body : Bytes) :
    (∃ fields mermaid outline, AsksFor body fields mermaid outline) ∨
      (parse body).IsRefusal ∨
      (IsUnreadable body ∧ parse body = .failure) := by
  unfold parse
  -- The body, its code, its syntax and the diagram are looked at in this order.
  rcases bodyFields_cases body with ⟨fields, hbody, hfields⟩ | ⟨r, hr, hrefused⟩ | ⟨hbad, hfail⟩
  · rw [hfields]
    rcases bodyCode_cases fields with ⟨code, hlookup, hcode⟩ | ⟨r, hr, hrefused⟩
    · rcases bodyMode_cases fields with ⟨mode, hgiven, hknown, hmode⟩ | ⟨r, hr, hrefused⟩
      · simp only [hcode, hmode, bind, Except.bind]
        cases hread : Mermaid.readDiagram (switch fields "strict".toText) mode code with
        | error e => exact Or.inr (Or.inl (Reply.isRefusal_badRequest e.isScalar_message))
        | ok read =>
            obtain ⟨mermaid, outline⟩ := read
            refine Or.inl ⟨fields, mermaid, outline, hbody, ?_⟩
            exact ⟨code, mode, hlookup, hgiven, hknown, hread⟩
      · refine Or.inr (Or.inl ?_)
        simpa only [hcode, hrefused, bind, Except.bind, settled] using hr
    · refine Or.inr (Or.inl ?_)
      simpa only [hrefused, bind, Except.bind, settled] using hr
  · refine Or.inr (Or.inl ?_)
    rwa [hrefused]
  · exact Or.inr (Or.inr ⟨hbad, by rw [hfail]; rfl⟩)

/-- The reply is 200 exactly when an outline is asked for that can be described. -/
theorem status_parse_eq_ok_iff :
    (parse body).status = 200 ↔
      ∃ fields mermaid outline, AsksFor body fields mermaid outline ∧
        CanBeDescribed fields mermaid outline := by
  constructor
  · intro hstatus
    rcases parse_cases body with ⟨fields, mermaid, outline, hasks⟩ | h | ⟨-, h⟩
    · rcases parse_of_asksFor hasks with ⟨hdescribed, -⟩ | ⟨-, h⟩
      · exact ⟨fields, mermaid, outline, hasks, hdescribed⟩
      · simp [h] at hstatus
    · simp [h.status_eq] at hstatus
    · simp [h] at hstatus
  · rintro ⟨fields, mermaid, outline, hasks, hdescribed⟩
    rcases parse_of_asksFor hasks with ⟨-, h⟩ | ⟨hbad, -⟩
    · rw [h]
      rfl
    · exact absurd hdescribed hbad

theorem status_parse_eq_failure_iff :
    (parse body).status = 500 ↔
      IsUnreadable body ∨
        ∃ fields mermaid outline, AsksFor body fields mermaid outline ∧
          ¬ CanBeDescribed fields mermaid outline := by
  constructor
  · intro hstatus
    rcases parse_cases body with ⟨fields, mermaid, outline, hasks⟩ | h | ⟨hbad, -⟩
    · rcases parse_of_asksFor hasks with ⟨-, h⟩ | ⟨hbad, -⟩
      · simp [h, Reply.status] at hstatus
      · exact Or.inr ⟨fields, mermaid, outline, hasks, hbad⟩
    · simp [h.status_eq] at hstatus
    · exact Or.inl hbad
  · rintro ((hlong | hdeep) | ⟨fields, mermaid, outline, hasks, hbad⟩)
    · rw [parse, bodyFields, hlong]
      rfl
    · rw [parse, bodyFields, hdeep]
      rfl
    · rcases parse_of_asksFor hasks with ⟨hdescribed, -⟩ | ⟨-, h⟩
      · exact absurd hdescribed hbad
      · rw [h, Reply.status_failure]

/-- The status is 200, 400 or 500.  It is 500 when the body is not read through, and when an
outline is asked for whose tooltips are stray or whose description cannot be sent; it is 200 when
one is asked for that can be described, and then the reply is its description, where each message
has its tooltip or else its caption. -/
theorem parse_status (body : Bytes) :
    ((parse body).status = 200 ∨ (parse body).status = 400 ∨ (parse body).status = 500) ∧
      ((parse body).status = 500 ↔
        IsUnreadable body ∨
          ∃ fields mermaid outline, AsksFor body fields mermaid outline ∧
            ¬ CanBeDescribed fields mermaid outline) ∧
      ((parse body).status = 200 ↔
        ∃ fields mermaid outline, AsksFor body fields mermaid outline ∧
          CanBeDescribed fields mermaid outline) ∧
      ∀ fields mermaid outline, AsksFor body fields mermaid outline →
        (parse body).status = 200 →
          parse body = .json 200 (outlineBody fields mermaid outline) none := by
  refine ⟨?_, status_parse_eq_failure_iff, status_parse_eq_ok_iff, ?_⟩
  -- Every body is of one of three kinds, and each kind has its statuses.
  · rcases parse_cases body with ⟨fields, mermaid, outline, hasks⟩ | h | ⟨-, h⟩
    · rcases parse_of_asksFor hasks with ⟨-, h⟩ | ⟨-, h⟩
      · exact Or.inl (by rw [h]; rfl)
      · simp [h]
    · simp [h.status_eq]
    · simp [h]
  · intro fields mermaid outline hasks hstatus
    rcases parse_of_asksFor hasks with ⟨-, h⟩ | ⟨-, h⟩
    · exact h
    · simp [h] at hstatus

end

/-! ## Two bodies -/

/-- Two messages, of which the first one has a tooltip and the other one has a void one. -/
def captionedFields : List (Text × Json) :=
  [("code".toText, .str "A->>B: x\nB-->>A: y".toText),
    ("customTooltips".toText,
      .obj [("msg-0".toText, .str "asks".toText), ("msg-1".toText, .str [])])]

theorem readable_captionedFields [Json.Stack] :
    Json.Readable Json.Stack.room (.obj captionedFields) := by
  refine .obj (by decide) ?_
  simp only [captionedFields, List.forall_mem_cons]
  refine ⟨.str _, .obj (by decide) ?_, List.forall_mem_nil _⟩
  simp only [List.forall_mem_cons]
  exact ⟨.str _, .str _, List.forall_mem_nil _⟩

theorem isUnsplit_captionedFields : Json.AllTexts Json.isUnsplit (.obj captionedFields) := by
  refine .obj (by decide) ?_
  simp only [captionedFields, List.forall_mem_cons]
  refine ⟨.str (by decide), .obj (by decide) ?_, List.forall_mem_nil _⟩
  simp only [List.forall_mem_cons]
  exact ⟨.str (by decide), .str (by decide), List.forall_mem_nil _⟩

theorem asksFor_captionedFields [Json.Stack] :
    AsksFor (Utf8.encode (Json.write .dense (.obj captionedFields))) captionedFields
      "A->>B: x\nB-->>A: y".toText (Mermaid.outline "A->>B: x\nB-->>A: y".toText) where
  parsed := Json.parseBytes_encode_write Json.punctuated_dense readable_captionedFields
    isUnsplit_captionedFields
  read := ⟨_, mermaidMode, rfl, rfl, rfl, rfl⟩

/-- The messages of these fields. -/
def captionedSteps : List Mermaid.Step :=
  [⟨0, "A".toText, "B".toText, "x".toText, false⟩, ⟨1, "B".toText, "A".toText, "y".toText, true⟩]

theorem canBeDescribed_captionedFields [Json.Stack] :
    CanBeDescribed captionedFields "A->>B: x\nB-->>A: y".toText
      (Mermaid.outline "A->>B: x\nB-->>A: y".toText) where
  notStray := fun h => h.2.2 _ rfl
  sendable := by
    have hsteps : (Mermaid.outline "A->>B: x\nB-->>A: y".toText).steps = captionedSteps := rfl
    have hparticipants : (Mermaid.outline "A->>B: x\nB-->>A: y".toText).participants =
        [⟨"A".toText, none, false⟩, ⟨"B".toText, none, false⟩] := rfl
    rw [Json.Stack.room, isSendable_outlineBody, hsteps, hparticipants]
    simp only [captionedSteps, List.forall_mem_cons]
    exact ⟨by decide, ⟨by decide, by decide, List.forall_mem_nil _⟩,
      ⟨by decide, rfl⟩, ⟨by decide, rfl⟩, List.forall_mem_nil _⟩

theorem parse_status_captioned :
    @parse .usual (Utf8.encode (Json.write .dense (.obj captionedFields))) =
      .json 200
        (.obj [("mermaid".toText, .str "A->>B: x\nB-->>A: y".toText),
          ("participants".toText, .arr
            [Mermaid.Participant.toJson ⟨"A".toText, none, false⟩,
              Mermaid.Participant.toJson ⟨"B".toText, none, false⟩]),
          ("messages".toText, .arr (captionedSteps.map Mermaid.Step.toJson)),
          ("steps".toText, .arr
            [.obj [("text".toText, .str "x".toText), ("description".toText, .str "asks".toText)],
              .obj [("text".toText, .str "y".toText),
                ("description".toText, .str "B replies to A: y".toText)]])])
        none := by
  obtain ⟨-, -, hok, hreply⟩ :=
    @parse_status .usual (Utf8.encode (Json.write .dense (.obj captionedFields)))
  have hstatus := hok.mpr
    ⟨_, _, _, @asksFor_captionedFields .usual, @canBeDescribed_captionedFields .usual⟩
  rw [hreply _ _ _ (@asksFor_captionedFields .usual) hstatus]
  rfl

/-- A message, and an array in place of its tooltip. -/
def arrayedFields : List (Text × Json) :=
  [("code".toText, .str "A->>B: x".toText),
    ("customTooltips".toText, .arr [.str "x".toText])]

theorem readable_arrayedFields [Json.Stack] :
    Json.Readable Json.Stack.room (.obj arrayedFields) := by
  refine .obj (by decide) ?_
  simp only [arrayedFields, List.forall_mem_cons]
  refine ⟨.str _, .arr ?_, List.forall_mem_nil _⟩
  exact List.forall_mem_singleton.mpr (.str _)

theorem isUnsplit_arrayedFields : Json.AllTexts Json.isUnsplit (.obj arrayedFields) := by
  refine .obj (by decide) ?_
  simp only [arrayedFields, List.forall_mem_cons]
  refine ⟨.str (by decide), .arr ?_, List.forall_mem_nil _⟩
  exact List.forall_mem_singleton.mpr (.str (by decide))

theorem asksFor_arrayedFields [Json.Stack] :
    AsksFor (Utf8.encode (Json.write .dense (.obj arrayedFields))) arrayedFields
      "A->>B: x".toText (Mermaid.outline "A->>B: x".toText) where
  parsed := Json.parseBytes_encode_write Json.punctuated_dense readable_arrayedFields
    isUnsplit_arrayedFields
  read := ⟨_, mermaidMode, rfl, rfl, rfl, rfl⟩

theorem tooltipsAreStray_arrayedFields :
    TooltipsAreStray arrayedFields (Mermaid.outline "A->>B: x".toText).steps :=
  ⟨by decide +kernel, rfl, fun _ h => Json.noConfusion h⟩

theorem status_parse_arrayedFields [Json.Stack] :
    (parse (Utf8.encode (Json.write .dense (.obj arrayedFields)))).status = 500 := by
  rcases parse_of_asksFor asksFor_arrayedFields with ⟨hdescribed, -⟩ | ⟨-, h⟩
  · exact absurd tooltipsAreStray_arrayedFields hdescribed.notStray
  · rw [h, Reply.status_failure]

/-- Such a body asks for the outline of a message, and there is no reply to it. -/
theorem parse_fails_over_array :
    @AsksFor .usual (Utf8.encode (Json.write .dense (.obj arrayedFields))) arrayedFields
        "A->>B: x".toText (Mermaid.outline "A->>B: x".toText) ∧
      (@parse .usual (Utf8.encode (Json.write .dense (.obj arrayedFields)))).status = 500 :=
  ⟨@asksFor_arrayedFields .usual, @status_parse_arrayedFields .usual⟩

end Lifeline.Service
