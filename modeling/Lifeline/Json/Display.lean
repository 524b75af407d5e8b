import Lifeline.Binary64.Shortest
import Lifeline.Json.Value

/-!
# JSON values as text fields

A field that has to be a text takes any value and shows it: a text as it is,
anything else as a message shows it, with texts inside in quotes.  An integer with too many
digits cannot be shown, nor a value that nests too deep.
-/

namespace Lifeline.Json

/-- A number of double precision as a message shows it. -/
def displayReal : Binary64 → Text
  | .finite negative rank => Binary64.finiteText negative rank.val
  | .infinite false => "inf".toText
  | .infinite true => "-inf".toText
  | .notANumber => "nan".toText

mutual

/-- A value as a message shows it. -/
def shown : Json → Text
  | .null => "None".toText
  | .bool true => "True".toText
  | .bool false => "False".toText
  | .int n => Text.ofInt n
  | .real x => displayReal x
  | .str t => Text.quoted t
  | .arr items => .char '[' :: (shownItems items ++ [.char ']'])
  | .obj fields => .char '{' :: (shownFields fields ++ [.char '}'])

/-- The items of an array, with commas. -/
def shownItems : List Json → Text
  | [] => []
  | [v] => shown v
  | v :: next :: rest => shown v ++ ", ".toText ++ shownItems (next :: rest)

/-- The fields of an object, with commas. -/
def shownFields : List (Text × Json) → Text
  | [] => []
  | [(k, v)] => Text.quoted k ++ ": ".toText ++ shown v
  | (k, v) :: next :: rest =>
      Text.quoted k ++ ": ".toText ++ shown v ++ ", ".toText ++ shownFields (next :: rest)

end

/-- A value as a text field takes it. -/
def display : Json → Text
  | .str t => t
  | v => shown v

/-! ## Values that cannot be shown -/

/-- Why a value cannot be shown. -/
inductive ShowError where
  | longInteger
  /-- More arrays and objects are open than there is room for. -/
  | tooDeep
deriving DecidableEq

mutual

/-- What goes wrong first when a value is shown with room for so many arrays and objects. -/
def showError? : Nat → Json → Option ShowError
  | _, .int n =>
      if (Text.ofNat n.natAbs).length ≤ maxIntegerDigits then none else some .longInteger
  | 0, .arr _ => some .tooDeep
  | room + 1, .arr items => itemsShowError? room items
  | 0, .obj _ => some .tooDeep
  | room + 1, .obj fields => fieldsShowError? room fields
  | _, _ => none

/-- What goes wrong first in the items of an array. -/
def itemsShowError? : Nat → List Json → Option ShowError
  | _, [] => none
  | room, v :: rest => (showError? room v).or (itemsShowError? room rest)

/-- What goes wrong first in the values of fields. -/
def fieldsShowError? : Nat → List (Text × Json) → Option ShowError
  | _, [] => none
  | room, (_, v) :: rest => (showError? room v).or (fieldsShowError? room rest)

end

@[simp] theorem display_str (t : Text) : display (.str t) = t := rfl

end Lifeline.Json
