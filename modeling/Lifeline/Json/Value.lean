import Lifeline.Binary64.Basic
import Lifeline.TextMap

/-!
# JSON values

Integers and numbers with a point or an exponent are different values, since
they are written differently.  The fields of an object stand in order.
-/

namespace Lifeline

/-- A JSON value. -/
inductive Json where
  | null
  | bool (b : Bool)
  | int (n : Int)
  | real (x : Binary64)
  | str (t : Text)
  | arr (items : List Json)
  | obj (fields : List (Text × Json))

namespace Json

/-- The most digits that an integer may have when it is read or shown. -/
def maxIntegerDigits : Nat := 4300

/-- The values that stand for "nothing given": null, false, zero, and the empty
text, array and object. -/
def isVoid : Json → Bool
  | .null => true
  | .bool b => !b
  | .int n => n == 0
  | .real x => x.isZero
  | .str t => t.isEmpty
  | .arr items => items.isEmpty
  | .obj fields => fields.isEmpty

/-- A field of an object, null when it is missing. -/
def fieldOrNull (fields : List (Text × Json)) (key : Text) : Json :=
  (lookupEntry key fields).getD .null

/-- A field of an object unless it is missing or void. -/
def givenField? (fields : List (Text × Json)) (key : Text) : Option Json :=
  match lookupEntry key fields with
  | some v => if v.isVoid then none else some v
  | none => none

/-- The fields of an object. -/
def fields? : Json → Option (List (Text × Json))
  | .obj fields => some fields
  | _ => none

/-- The fields of an object, or none at all of a void value; another value is
refused. -/
def fieldsOrVoid? (v : Json) : Option (List (Text × Json)) :=
  if v.isVoid then some [] else v.fields?

/-- A map of texts as an object. -/
def ofTexts (m : TextMap Text) : Json :=
  .obj (m.entries.map fun e => (e.1, .str e.2))

mutual

/-- A value can be sent, with room for so many arrays and objects: its numbers are
finite, and its texts have UTF-8. -/
def isSendable : Nat → Json → Bool
  | _, .real x => x.isFinite
  | _, .str t => t.isScalar
  | 0, .arr _ => false
  | room + 1, .arr items => itemsAreSendable room items
  | 0, .obj _ => false
  | room + 1, .obj fields => fieldsAreSendable room fields
  | _, _ => true

/-- The items of an array can be sent. -/
def itemsAreSendable : Nat → List Json → Bool
  | _, [] => true
  | room, v :: rest => isSendable room v && itemsAreSendable room rest

/-- The fields of an object can be sent. -/
def fieldsAreSendable : Nat → List (Text × Json) → Bool
  | _, [] => true
  | room, (k, v) :: rest => k.isScalar && isSendable room v && fieldsAreSendable room rest

end

end Json
end Lifeline
