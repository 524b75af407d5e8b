import Lifeline.Json.Value

/-!
# Comparing JSON values

Numbers and truth values are compared by value, texts by code points, arrays
item by item.  Other values, and values of different kinds, have no order; to
ask for one is a fault of the data.  What is not a number comes neither before
nor behind a number, but it is the same as itself.
-/

namespace Lifeline.Json

/-- Where a number stands; a truth value counts as zero or one. -/
def place? : Json → Option Binary64.Place
  | .bool b => some (Binary64.placeOfInt (if b then 1 else 0))
  | .int n => some (Binary64.placeOfInt n)
  | .real x => some x.place
  | _ => none

mutual

/-- Two values are the same.  Objects are the same when they have the same
fields in any order. -/
def same : Json → Json → Bool
  | .null, .null => true
  | .str s, .str t => s == t
  | .arr vs, .arr ws => sameItems vs ws
  | .obj fs, .obj gs => fs.length == gs.length && fieldsAmong gs fs
  | v, w =>
      match place? v, place? w with
      | some a, some b => a == b
      | _, _ => false

/-- Two arrays have the same items. -/
def sameItems : List Json → List Json → Bool
  | [], [] => true
  | v :: vs, w :: ws => same v w && sameItems vs ws
  | _, _ => false

/-- Every field of the second list is the same in the first one. -/
def fieldsAmong (others : List (Text × Json)) : List (Text × Json) → Bool
  | [] => true
  | (k, v) :: rest =>
      (match lookupEntry k others with
        | some w => same v w
        | none => false) && fieldsAmong others rest

end

/-- A text comes before another one by code points. -/
def textBefore : Text → Text → Bool
  | [], [] => false
  | [], _ :: _ => true
  | _ :: _, [] => false
  | a :: s, b :: t => if a = b then textBefore s t else a.toNat < b.toNat

mutual

/-- A value comes before another one; `none` when they have no order. -/
def before? : Json → Json → Option Bool
  | .str s, .str t => some (textBefore s t)
  | .arr vs, .arr ws => itemsBefore? vs ws
  | v, w =>
      match place? v, place? w with
      | some a, some b => some (a.less b)
      | _, _ => none

/-- An array comes before another one: at the first different items, or because
it ends first. -/
def itemsBefore? : List Json → List Json → Option Bool
  | [], [] => some false
  | [], _ :: _ => some true
  | _ :: _, [] => some false
  | v :: vs, w :: ws => if same v w then itemsBefore? vs ws else before? v w

end

end Lifeline.Json
