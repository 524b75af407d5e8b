import Lifeline.Theme

/-!
# Sessions

A session is what an editor has open: a diagram, the syntax it is written in,
its colours, tooltips for its messages and annotations of its participants.  A
session can be read from the fields of a record, which are checked in a fixed
order.
-/

namespace Lifeline

/-- What an editor knows about a participant. -/
structure Annotation where
  description : Text
  role : Text
  notes : Text
deriving DecidableEq

namespace Annotation

/-- The annotation that fields describe; what is missing is empty. -/
def ofFields (fields : List (Text × Json)) : Annotation :=
  let read (key : Text) : Text :=
    match lookupEntry key fields with
    | some v => v.display
    | none => []
  ⟨read "description".toText, read "role".toText, read "notes".toText⟩

/-- The fields of an annotation. -/
def toJson (a : Annotation) : Json :=
  .obj [("description".toText, .str a.description), ("role".toText, .str a.role),
    ("notes".toText, .str a.notes)]

end Annotation

/-- The syntax of a diagram that names none. -/
def mermaidMode : Text := "mermaid".toText

/-- The other syntax that diagrams may be written in. -/
def plantUmlMode : Text := "plantuml".toText

/-- A text names a known syntax. -/
def isKnownMode (mode : Text) : Bool :=
  mode == mermaidMode || mode == plantUmlMode

/-- An editor session.  The syntax is kept by name, so that a session with an
unknown one can be held, though neither a record nor a link gives it back. -/
structure Session where
  code : Text
  syntaxMode : Text
  theme : Theme
  tooltips : TextMap Text
  participants : TextMap Annotation
deriving DecidableEq

/-- Why a record is no session. -/
inductive RecordError where
  | notJson
  | missingCode
  | unknownMode (mode : Json)
  | themeNotObject
  | tooltipsNotObject
  | participantsNotObjects

/-- The wording of a record error. -/
def RecordError.message : RecordError → Text
  | .notJson => "Invalid JSON file".toText
  | .missingCode => "Invalid config: missing code".toText
  | .unknownMode mode => "Invalid config: unknown syntaxMode ".toText ++ mode.shown
  | .themeNotObject => "Invalid config: colorTheme must be an object".toText
  | .tooltipsNotObject => "Invalid config: customTooltips must be an object".toText
  | .participantsNotObjects =>
      "Invalid config: customParticipants must map names to objects".toText

namespace Session

/-- The map of texts that fields describe. -/
def readTexts (fields : List (Text × Json)) : TextMap Text :=
  (TextMap.ofList fields).mapValues Json.display

/-- The values of fields, if all are objects, as the fields they hold. -/
def allObjects? : List (Text × Json) → Option (List (Text × List (Text × Json)))
  | [] => some []
  | (k, v) :: rest =>
      match v.fields? with
      | none => none
      | some fields => (allObjects? rest).map ((k, fields) :: ·)

/-- The map of annotations that fields describe; `none` when a value is no
object. -/
def readAnnotations? (fields : List (Text × Json)) : Option (TextMap Annotation) :=
  (allObjects? fields).map fun entries => (TextMap.ofList entries).mapValues Annotation.ofFields

/-- The diagram of a record, a text that is not empty. -/
def readCode (fields : List (Text × Json)) : Except RecordError Text :=
  match lookupEntry "code".toText fields with
  | some (.str (c :: code)) => .ok (c :: code)
  | _ => .error .missingCode

/-- The syntax of a record. -/
def readMode (fields : List (Text × Json)) : Except RecordError Text :=
  match Json.givenField? fields "syntaxMode".toText with
  | none => .ok mermaidMode
  | some (.str mode) => if isKnownMode mode then .ok mode else .error (.unknownMode (.str mode))
  | some v => .error (.unknownMode v)

/-- The theme of a record: null, an object, or missing. -/
def readTheme (fields : List (Text × Json)) : Except RecordError Theme :=
  match lookupEntry "colorTheme".toText fields with
  | none => .ok Theme.default
  | some .null => .ok Theme.default
  | some (.obj colours) => .ok (Theme.ofFields colours)
  | some _ => .error .themeNotObject

/-- The tooltips of a record. -/
def readTooltips (fields : List (Text × Json)) : Except RecordError (TextMap Text) :=
  match (Json.fieldOrNull fields "customTooltips".toText).fieldsOrVoid? with
  | some entries => .ok (readTexts entries)
  | none => .error .tooltipsNotObject

/-- The annotations of a record. -/
def readParticipants (fields : List (Text × Json)) : Except RecordError (TextMap Annotation) :=
  match (Json.fieldOrNull fields "customParticipants".toText).fieldsOrVoid? with
  | none => .error .participantsNotObjects
  | some entries =>
      match readAnnotations? entries with
      | some annotations => .ok annotations
      | none => .error .participantsNotObjects

/-- The session that the fields of a record describe. -/
def ofFields (fields : List (Text × Json)) : Except RecordError Session := do
  let code ← readCode fields
  let syntaxMode ← readMode fields
  let theme ← readTheme fields
  let tooltips ← readTooltips fields
  let participants ← readParticipants fields
  .ok ⟨code, syntaxMode, theme, tooltips, participants⟩

/-- The fields of a session. -/
def toFields (s : Session) : List (Text × Json) :=
  [("code".toText, .str s.code),
    ("syntaxMode".toText, .str s.syntaxMode),
    ("colorTheme".toText, s.theme.toJson),
    ("customTooltips".toText, Json.ofTexts s.tooltips),
    ("customParticipants".toText, .obj (s.participants.mapValues Annotation.toJson).entries)]

/-- A session as an object. -/
def toJson (s : Session) : Json :=
  .obj s.toFields

/-- A session that holds nothing but a diagram. -/
def ofCode (code syntaxMode : Text) : Session :=
  ⟨code, syntaxMode, Theme.default, TextMap.empty, TextMap.empty⟩

end Session
end Lifeline
