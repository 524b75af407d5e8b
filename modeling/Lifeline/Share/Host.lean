import Lifeline.Text.Quoted
import Lifeline.Text.Search

/-!
# Numeric hosts

A host may be a number of the internet.  A number of version 4 is four octets in
decimal digits.  A number of version 6 is eight groups of hexadecimal digits,
where a double colon stands for one group or more that are zero, where a number
of version 4 may stand for the last two groups, and where a zone may follow
behind a percent sign.  A number of a later version begins with a letter and
names its version.
-/

namespace Lifeline.Share

/-- An octet: a number up to 255 in decimal digits, without leading zeros. -/
def isOctet : Text → Bool
  | [] => false
  | ['0'] => true
  | '0' :: _ => false
  | t => t.all CodePoint.isDigit && t.length ≤ 3 &&
      t.foldl (fun n c => 10 * n + (c.toNat - 48)) 0 ≤ 255

/-- A number of version 4. -/
def isVersion4 (t : Text) : Bool :=
  let octets := Text.splitWhere (· == '.') t
  octets.length == 4 && octets.all isOctet

/-- A hexadecimal digit. -/
def isHexDigit (c : CodePoint) : Bool :=
  (Text.hexDigit? c).isSome

/-- A group of a number of version 6. -/
def isGroup (t : Text) : Bool :=
  !t.isEmpty && t.length ≤ 4 && t.all isHexDigit

/-- The pieces of a text between colons; an empty text has none. -/
def colonPieces (t : Text) : List Text :=
  if t.isEmpty then [] else Text.splitWhere (· == ':') t

/-- How many groups the last pieces of a number of version 6 stand for; `none`
when one of them is no group. -/
def groupCount? : List Text → Option Nat
  | [] => some 0
  | [last] => if isGroup last then some 1 else if isVersion4 last then some 2 else none
  | piece :: rest => if isGroup piece then (groupCount? rest).map (· + 1) else none

/-- A number of version 6 without a zone. -/
def isVersion6 (t : Text) : Bool :=
  match Text.cutWhere? (Text.after? "::".toText) t with
  | none => groupCount? (colonPieces t) == some 8
  | some (front, back) =>
      let front := colonPieces front
      front.all isGroup &&
        (match groupCount? (colonPieces back) with
          | some count => front.length + count ≤ 7
          | none => false)

/-- A number of version 6, perhaps with a zone. -/
def isZonedVersion6 (t : Text) : Bool :=
  match Text.cutAt? '%' t with
  | none => isVersion6 t
  | some (number, zone) => isVersion6 number && !zone.isEmpty && decide (.char '%' ∉ zone)

/-- A number of a later version: the letter, the version in hexadecimal digits,
a point, and something behind it on the same line. -/
def isLaterVersion (t : Text) : Bool :=
  match t with
  | 'v' :: rest =>
      match rest.takeWhile isHexDigit, rest.dropWhile isHexDigit with
      | _ :: _, '.' :: c :: number => (c :: number).all (· != '\n')
      | _, _ => false
  | _ => false

/-- A host that may stand in square brackets. -/
def isNumericHost (t : Text) : Bool :=
  match t with
  | 'v' :: _ => isLaterVersion t
  | _ => isZonedVersion6 t

end Lifeline.Share
