import Lifeline.Session
import Lifeline.Text.Lines
import Lifeline.Text.Word

/-!
# Session records

A record is a session with a name, the version of its format and the times of
its first and last saving.  Records are what is exported, imported and stored.
A record without a name is named after its diagram.
-/

namespace Lifeline

/-- A named session. -/
structure Record where
  version : Text
  name : Text
  createdAt : Text
  updatedAt : Text
  session : Session
deriving DecidableEq

/-- What a clock shows: the moment in full, and the day alone. -/
structure Clock where
  now : Text
  today : Text

namespace Record

/-- The version of the format. -/
def currentVersion : Text := "1.0".toText

/-- The word that follows `participant` and white space at the beginning. -/
def participantHere? (t : Text) : Option (Text × Text) :=
  match Text.after? "participant".toText t with
  | none => none
  | some rest =>
      match Text.afterBlanks? rest with
      | none => none
      | some word => Text.word? word

/-- The first word that follows `participant` and white space anywhere in a
line. -/
def participantIn? : Text → Option Text
  | [] => none
  | c :: rest =>
      match participantHere? (c :: rest) with
      | some (word, _) => some word
      | none => participantIn? rest

/-- The name that a trimmed line gives a diagram: what follows `title`, or the
participant that it mentions. -/
def lineName? (line : Text) : Option Text :=
  match Text.after? "title".toText line with
  | some rest => some (Text.strip rest)
  | none => (participantIn? line).map fun word => "Diagram - ".toText ++ word

/-- The name of a diagram: from the first line that gives one, or else from the
day. -/
def nameOf (today code : Text) : Text :=
  match (Text.lines code).findSome? fun line => lineName? (Text.strip line) with
  | some name => name
  | none => "Diagram - ".toText ++ today

/-- The file name for a record: every character but ASCII letters and digits
becomes a hyphen, and capitals become small. -/
def fileName (name : Text) : Text :=
  (name.map fun c => if c.isAlphanum then c.toLower else '-') ++ ".json".toText

/-- A field as a text, or what stands for it when it is missing. -/
def textField (fields : List (Text × Json)) (key missing : Text) : Text :=
  match lookupEntry key fields with
  | some v => v.display
  | none => missing

/-- The record of a session in fields. -/
def ofFieldsWith (today : Text) (fields : List (Text × Json)) (session : Session) : Record where
  version := textField fields "version".toText currentVersion
  name :=
    match Json.givenField? fields "name".toText with
    | some v => v.display
    | none => nameOf today session.code
  createdAt := textField fields "createdAt".toText []
  updatedAt := textField fields "updatedAt".toText []
  session := session

/-- The record that fields describe. -/
def ofFields (today : Text) (fields : List (Text × Json)) : Except RecordError Record :=
  (Session.ofFields fields).map (ofFieldsWith today fields)

/-- The fields of a record, where the times may be any values. -/
def fieldsWith (r : Record) (createdAt updatedAt : Json) : List (Text × Json) :=
  [("version".toText, .str r.version), ("name".toText, .str r.name),
    ("createdAt".toText, createdAt), ("updatedAt".toText, updatedAt)] ++ r.session.toFields

/-- The fields of a record. -/
def toFields (r : Record) : List (Text × Json) :=
  r.fieldsWith (.str r.createdAt) (.str r.updatedAt)

/-- A record as an object. -/
def toJson (r : Record) : Json :=
  .obj r.toFields

/-- A record as the text of a file. -/
def toText (r : Record) : Text :=
  Json.write .page r.toJson

/-- The record of a session that is exported now, under a name if one is
given. -/
def ofSession (clock : Clock) (session : Session) (name : Option Text) : Record :=
  let given :=
    match name with
    | some (c :: rest) => c :: rest
    | _ => nameOf clock.today session.code
  ⟨currentVersion, given, clock.now, clock.now, session⟩

end Record
end Lifeline
