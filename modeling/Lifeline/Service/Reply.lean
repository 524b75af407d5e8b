import Lifeline.Json.Encoding
import Lifeline.Json.Writer
import Lifeline.Record.Import

/-!
# Requests and replies

A request has a method, a path that is already decoded, and a body of octets.  A
reply is a status with a JSON body, and perhaps a file name to save the body
under.  A reply that cannot be made, because a handler met data it does not
expect or the body cannot be sent, is a failure.
-/

namespace Lifeline.Service

/-- A request. -/
structure Request where
  method : Text
  path : Text
  body : Bytes

/-- A reply. -/
inductive Reply where
  | json (status : Nat) (body : Json) (fileName? : Option Text)
  | failure

namespace Reply

section

variable [Json.Stack]

/-- A reply with a body, which may have to be saved under a name. -/
def ofFile (status : Nat) (body : Json) (fileName? : Option Text) : Reply :=
  if body.isSendable Json.Stack.room then .json status body fileName? else .failure

/-- A reply with a body. -/
def ofJson (status : Nat) (body : Json) : Reply :=
  ofFile status body none

/-- A reply with the fields of an object. -/
def ofFields (fields : List (Text × Json)) : Reply :=
  ofJson 200 (.obj fields)

/-- A reply that says what is wrong. -/
def detail (status : Nat) (message : Text) : Reply :=
  ofJson status (.obj [("detail".toText, .str message)])

/-- The reply to a request that cannot be met. -/
def badRequest (message : Text) : Reply :=
  detail 400 message

end

/-- The status that the client sees. -/
def status : Reply → Nat
  | .json status _ _ => status
  | .failure => 500

/-- The header that names a file. -/
def disposition (fileName : Text) : Text :=
  "attachment; filename=\"".toText ++ fileName ++ [.char '"']

end Reply

/-- What the reader of bodies takes for a body that is no JSON. -/
def caughtByBody : List ExceptionClass :=
  [.jsonDecodeError, .unicodeDecodeError]

section

variable [Json.Stack]

/-- The fields of a body, or the reply to one that has none. -/
def bodyFields (body : Bytes) : Except Reply (List (Text × Json)) :=
  match Json.parseBytes body with
  | .ok (.obj fields) => .ok fields
  | .ok _ => .error (.badRequest "Request body must be a JSON object".toText)
  | .error e =>
      if e.exception.isCaughtBy caughtByBody then
        .error (.badRequest "Request body must be JSON".toText)
      else
        .error .failure

/-- The diagram in the fields of a body. -/
def bodyCode (fields : List (Text × Json)) : Except Reply Text :=
  match lookupEntry "code".toText fields with
  | some (.str code) => .ok code
  | _ => .error (.badRequest "code is required".toText)

/-- The session in the fields of a body. -/
def bodySession (fields : List (Text × Json)) : Except Reply Session :=
  match Session.ofFields fields with
  | .ok s => .ok s
  | .error e => .error (.badRequest e.message)

end

/-- A field that switches something on: whether it is given and not void. -/
def switch (fields : List (Text × Json)) (key : Text) : Bool :=
  (Json.givenField? fields key).isSome

end Lifeline.Service
