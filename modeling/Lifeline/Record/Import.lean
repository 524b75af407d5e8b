import Lifeline.Json.Encoding
import Lifeline.Record
import Lifeline.Session.Checked

/-!
# Reading and importing records

A record shows fields of every kind as texts, and not every value can be shown.  The importer
takes anything, a text or octets; what is wrong with the JSON is refused like an error of the
record, unless the importer does not catch it.
-/

namespace Lifeline.Record

/-! ## Reading -/

/-- What can end the reading of a record. -/
inductive ReadFault where
  | session (fault : Session.Fault)
  /-- A value is shown that cannot be shown. -/
  | unshown (e : Json.ShowError)

/-- What a fault of a session becomes when its message is written: that of an unknown syntax
shows the value. -/
def ReadFault.ofSession [Json.Stack] : Session.Fault → ReadFault
  | .refused (.unknownMode mode) =>
      match mode.showError? Json.Stack.room with
      | some e => .unshown e
      | none => .session (.refused (.unknownMode mode))
  | fault => .session fault

/-- The fields of a value in a field; none for a value that is no object. -/
def fieldsAt (fields : List (Text × Json)) (key : Text) : List (Text × Json) :=
  (Json.fieldOrNull fields key).fields?.getD []

/-- What is handed to the importer. -/
inductive Source where
  | text (t : Text)
  | octets (bytes : Bytes)

/-- The JSON value of what is handed to the importer. -/
def Source.parse [Json.Stack] : Source → Except Json.ReadError Json
  | .text t => Json.parse t
  | .octets bytes => Json.parseBytes bytes

/-- What can end an import. -/
inductive ImportFault where
  | session (fault : Session.Fault)
  /-- An error of the JSON that the importer does not catch. -/
  | json (e : Json.ReadError)

/-- An error of records that ends an import. -/
def ImportFault.refused (e : RecordError) : ImportFault :=
  .session (.refused e)

/-- What the importer takes for no JSON. -/
def caughtByImporter : List ExceptionClass :=
  [.valueError, .typeError]

/-- The session that is imported, or the fault that ends the import. -/
def importSource [Json.Stack] (x : Source) : Except ImportFault Session :=
  match x.parse with
  | .ok (.obj fields) => (Session.watchedSession fields).mapError ImportFault.session
  | .ok _ => .error (.refused .notJson)
  | .error e =>
      if e.exception.isCaughtBy caughtByImporter then .error (.refused .notJson)
      else .error (.json e)

end Lifeline.Record
