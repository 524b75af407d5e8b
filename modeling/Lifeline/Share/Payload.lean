import Lifeline.Json.Reader
import Lifeline.Session
import Lifeline.Share.Shortcut
import Lifeline.Share.Token

/-!
# Sessions as tokens

What a token carries is a JSON object that holds only what differs from a fresh
session: the diagram under `c`, the syntax under `s`, colours under `t`,
tooltips under `tt` and annotations under `p`.
-/

namespace Lifeline.Share

/-- The diagram that is sent: as it is, or with its lines trimmed. -/
def sentCode (compact : Bool) (code : Text) : Text :=
  if compact then Text.compactLines code else code

/-- The syntax in a payload: nothing for Mermaid. -/
def modeFields (mode : Text) : List (Text × Json) :=
  if mode = mermaidMode then [] else [("s".toText, .str mode)]

/-- The payload of a session, with the syntax in given fields. -/
def payloadWith (mode : List (Text × Json)) (compact : Bool) (s : Session) : Json :=
  .obj
    ([("c".toText, .str (Shortcut.substitute (sentCode compact s.code)))] ++
      mode ++
      (if s.theme.isDefault then [] else [("t".toText, s.theme.overridesJson)]) ++
      (if s.tooltips.isEmpty then [] else [("tt".toText, Json.ofTexts s.tooltips)]) ++
      (if s.participants.isEmpty then []
        else [("p".toText, .obj (s.participants.mapValues Annotation.toJson).entries)]))

/-- The object that a token of a session carries. -/
def payload (compact : Bool) (s : Session) : Json :=
  payloadWith (modeFields s.syntaxMode) compact s

/-- Why an object of a token is no session. -/
inductive PayloadError where
  | notObject
  | unknownMode (mode : Json)
  /-- The colours, the tooltips, the annotations or one of these is no
  object. -/
  | fieldNotObject

/-- The wording of a payload error, where it has one of its own. -/
def PayloadError.message? : PayloadError → Option Text
  | .notObject => some "share record is not an object".toText
  | .unknownMode mode => some ("unknown syntax mode ".toText ++ mode.shown)
  | .fieldNotObject => none

/-- The exception that tells of a payload error.  A value that is no object has no fields to
ask for. -/
def PayloadError.exception : PayloadError → ExceptionClass
  | .notObject => .valueError
  | .unknownMode _ => .valueError
  | .fieldNotObject => .attributeError

/-- The syntax of a payload. -/
def payloadMode (fields : List (Text × Json)) : Except PayloadError Text :=
  match Json.givenField? fields "s".toText with
  | none => .ok mermaidMode
  | some (.str mode) => if isKnownMode mode then .ok mode else .error (.unknownMode (.str mode))
  | some v => .error (.unknownMode v)

/-- The diagram of a payload. -/
def payloadCode (fields : List (Text × Json)) : Text :=
  match Json.givenField? fields "c".toText with
  | none => []
  | some v => Shortcut.restore v.display

/-- A map in a payload: a void or missing value is the empty map. -/
def payloadMap (fields : List (Text × Json)) (key : Text) :
    Except PayloadError (List (Text × Json)) :=
  match (Json.fieldOrNull fields key).fieldsOrVoid? with
  | some entries => .ok entries
  | none => .error .fieldNotObject

/-- The session that the fields of a payload describe. -/
def sessionOfFields (fields : List (Text × Json)) : Except PayloadError Session := do
  let syntaxMode ← payloadMode fields
  let colours ← payloadMap fields "t".toText
  let tooltips ← payloadMap fields "tt".toText
  let participants ← payloadMap fields "p".toText
  match Session.readAnnotations? participants with
  | none => .error .fieldNotObject
  | some annotations =>
      .ok
        { code := payloadCode fields
          syntaxMode
          theme := Theme.ofFields colours
          tooltips := Session.readTexts tooltips
          participants := annotations }

/-- The session that a payload describes. -/
def sessionOfPayload : Json → Except PayloadError Session
  | .obj fields => sessionOfFields fields
  | _ => .error .notObject

/-- The text that a token of a session carries. -/
def payloadText (compact : Bool) (s : Session) : Text :=
  Json.write .dense (payload compact s)

/-- The token of a session, if its texts have UTF-8. -/
def tokenOfSession? (compact : Bool) (s : Session) : Option Text :=
  tokenOfText? (payloadText compact s)

end Lifeline.Share
